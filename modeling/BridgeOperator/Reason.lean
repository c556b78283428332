/-!
The reasons the operator gives for the events it reports.
-/

namespace BridgeOperator.Reason

def validated : String := "Validated"
def validationFailed : String := "ValidationFailed"
def installing : String := "Installing"
def installed : String := "Installed"
def activated : String := "Activated"
def installFailed : String := "InstallFailed"
def driftDetected : String := "DriftDetected"
def removed : String := "Removed"
def uninstallFailed : String := "UninstallFailed"

/-- A provider is under way. -/
def progress : String := "Progress"

def sunsetReached : String := "SunsetReached"
def expired : String := "Expired"
def secretCreated : String := "SecretCreated"

end BridgeOperator.Reason
