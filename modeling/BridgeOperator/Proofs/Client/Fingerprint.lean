import BridgeOperator.Client.Secret
import BridgeOperator.Proofs.Encoding.Base64
import BridgeOperator.Proofs.SortedMap

/-!
Which changes of a config its fingerprint can show. In what is digested every key and every value is
ended by a zero, but a text may hold zeros itself. So the bytes tell the pieces that the texts are
cut into by their zeros, and no more: not which piece is the end of a key or of a value
(`shows_change_iff`).
-/

namespace BridgeOperator

theorem utf8_injective {s t : String} (h : utf8 s = utf8 t) : s = t := by
  have hs := fromUTF8?_utf8 s
  rw [h, fromUTF8?_utf8] at hs
  exact (Option.some.inj hs).symm

namespace Sha256

theorem digitChar_injective : ∀ m n : Fin 16, Nat.digitChar m = Nat.digitChar n → m = n := by
  decide

theorem hexByte_injective {a b : UInt8} (h : hexByte a = hexByte b) : a = b := by
  have ha := a.toNat_lt
  have hb := b.toNat_lt
  simp only [hexByte, List.cons.injEq, and_true] at h
  have hhigh := digitChar_injective ⟨a.toNat / 16, by omega⟩ ⟨b.toNat / 16, by omega⟩ h.1
  have hlow := digitChar_injective ⟨a.toNat % 16, by omega⟩ ⟨b.toNat % 16, by omega⟩ h.2
  simp only [Fin.mk.injEq] at hhigh hlow
  rw [← UInt8.toNat_inj]
  omega

theorem flatMap_hexByte_injective {l l' : List UInt8} (h : l.flatMap hexByte = l'.flatMap hexByte) :
    l = l' := by
  induction l generalizing l' with
  | nil =>
    cases l' with
    | nil => rfl
    | cons b l' => simp [hexByte] at h
  | cons a l ih =>
    cases l' with
    | nil => simp [hexByte] at h
    | cons b l' =>
      rw [List.flatMap_cons, List.flatMap_cons] at h
      obtain ⟨hhead, htail⟩ := List.append_inj h rfl
      rw [hexByte_injective hhead, ih htail]

end Sha256

namespace Fingerprint

variable {config other : SortedMap String}

/-- The text that is digested. -/
def chars (entries : List (String × String)) : List Char :=
  entries.flatMap fun e => e.1.toList ++ '\x00' :: (e.2.toList ++ ['\x00'])

/-- What the zeros in the keys and values cut them into. -/
def pieces (entries : List (String × String)) : List (List Char) :=
  entries.flatMap fun e => e.1.toList.splitOn '\x00' ++ e.2.toList.splitOn '\x00'

/-- There is no zero in the config. -/
def ZeroFree (config : SortedMap String) : Prop :=
  ∀ e ∈ config.toList, '\x00' ∉ e.1.toList ∧ '\x00' ∉ e.2.toList

instance : Decidable (ZeroFree config) := List.decidableBAll _ _

theorem fingerprintBytes_eq (config : SortedMap String) :
    fingerprintBytes config = utf8 (String.ofList (chars config.toList)) := by
  have hzero : String.utf8EncodeChar '\x00' = [0] := rfl
  simp [fingerprintBytes, utf8, chars, List.flatMap_assoc, hzero]

/-- Cut at its zeros the text is the pieces, and nothing after the last zero. -/
theorem splitOn_chars (entries : List (String × String)) :
    (chars entries).splitOn '\x00' = pieces entries ++ [[]] := by
  induction entries with
  | nil => rfl
  | cons e rest ih =>
    have hchars : chars (e :: rest) =
        e.1.toList ++ '\x00' :: (e.2.toList ++ '\x00' :: chars rest) := by
      simp [chars]
    rw [hchars, List.splitOn_append_cons_self, List.splitOn_append_cons_self, ih]
    simp [pieces]

theorem chars_eq_iff {l l' : List (String × String)} : chars l = chars l' ↔ pieces l = pieces l' := by
  constructor
  · intro h
    have hsplit := splitOn_chars l
    rw [h, splitOn_chars] at hsplit
    exact (List.append_left_inj [[]]).mp hsplit.symm
  · intro h
    have hjoined : ∀ entries, chars entries = ['\x00'].intercalate (pieces entries ++ [[]]) := by
      intro entries
      rw [← splitOn_chars, List.intercalate_splitOn]
    rw [hjoined, hjoined, h]

/-- The bytes that are digested tell the pieces and no more. -/
theorem fingerprintBytes_eq_iff :
    fingerprintBytes config = fingerprintBytes other ↔
      pieces config.toList = pieces other.toList := by
  rw [← chars_eq_iff, fingerprintBytes_eq, fingerprintBytes_eq]
  constructor
  · intro h
    exact String.ofList_injective (utf8_injective h)
  · intro h
    rw [h]

theorem configFingerprint_eq_iff :
    configFingerprint config = configFingerprint other ↔
      (Sha256.digest (fingerprintBytes config)).take 8 =
        (Sha256.digest (fingerprintBytes other)).take 8 := by
  constructor
  · intro h
    exact Sha256.flatMap_hexByte_injective (String.ofList_injective h)
  · intro h
    rw [configFingerprint, configFingerprint, h]

/-- Where there are no zeros the pieces are the keys and values themselves. -/
theorem ZeroFree.eq_of_pieces_eq (h : ZeroFree config) (h' : ZeroFree other)
    (heq : pieces config.toList = pieces other.toList) : config = other := by
  have hpieces : ∀ e : String × String, '\x00' ∉ e.1.toList ∧ '\x00' ∉ e.2.toList →
      ∀ rest, pieces (e :: rest) = e.1.toList :: e.2.toList :: pieces rest := by
    intro e he rest
    simp [pieces, List.splitOn_eq_singleton he.1, List.splitOn_eq_singleton he.2]
  refine SortedMap.ext_toList ?_
  unfold ZeroFree at h h'
  generalize config.toList = l at h heq
  generalize other.toList = l' at h' heq
  induction l generalizing l' with
  | nil =>
    cases l' with
    | nil => rfl
    | cons e' l' =>
      rw [hpieces e' (h' e' List.mem_cons_self)] at heq
      cases heq
  | cons e l ih =>
    cases l' with
    | nil =>
      rw [hpieces e (h e List.mem_cons_self)] at heq
      cases heq
    | cons e' l' =>
      rw [hpieces e (h e List.mem_cons_self), hpieces e' (h' e' List.mem_cons_self)] at heq
      simp only [List.cons.injEq, String.toList_inj] at heq
      obtain ⟨hkey, hvalue, hrest⟩ := heq
      rw [Prod.ext hkey hvalue, ih (fun a ha => h a (List.mem_cons_of_mem _ ha)) l'
        (fun a ha => h' a (List.mem_cons_of_mem _ ha)) hrest]

/-- **What a fingerprint shows.** The bytes of two configs differ exactly if their keys and values
make different pieces, as those of different configs without zeros do; and so do the fingerprints,
unless the digest itself collides. -/
theorem shows_change_iff (config other : SortedMap String) :
    (fingerprintBytes config ≠ fingerprintBytes other ↔
      pieces config.toList ≠ pieces other.toList) ∧
    (ZeroFree config → ZeroFree other → config ≠ other →
      pieces config.toList ≠ pieces other.toList) ∧
    (((Sha256.digest (fingerprintBytes config)).take 8 =
        (Sha256.digest (fingerprintBytes other)).take 8 →
          fingerprintBytes config = fingerprintBytes other) →
      (configFingerprint config ≠ configFingerprint other ↔
        pieces config.toList ≠ pieces other.toList)) := by
  refine ⟨not_congr fingerprintBytes_eq_iff, ?_, ?_⟩
  · intro h h' hne heq
    exact hne (h.eq_of_pieces_eq h' heq)
  · intro hdigest
    refine not_congr ?_
    rw [configFingerprint_eq_iff, ← fingerprintBytes_eq_iff]
    constructor
    · exact hdigest
    · intro h
      rw [h]

namespace Sample

def endpoint : SortedMap String := .ofList [("endpoint", "10.0.0.1"), ("port", "80")]

def moved : SortedMap String := .ofList [("endpoint", "10.0.0.1"), ("port", "8080")]

/-- The port has become a part of the address. -/
def joined : SortedMap String := .ofList [("endpoint", "10.0.0.1\x00port\x0080")]

end Sample

open Sample in
/-- A change of one value shows. -/
theorem shows_change_endpoint :
    ZeroFree endpoint ∧ ZeroFree moved ∧ endpoint ≠ moved ∧
      fingerprintBytes endpoint ≠ fingerprintBytes moved ∧
      configFingerprint endpoint ≠ configFingerprint moved := by
  obtain ⟨hbytes, hfree, hdigest⟩ := shows_change_iff endpoint moved
  have hpieces := hfree (by decide) (by decide) (by decide)
  have hcollision : (Sha256.digest (fingerprintBytes endpoint)).take 8 ≠
      (Sha256.digest (fingerprintBytes moved)).take 8 := by
    decide +kernel
  exact ⟨by decide, by decide, by decide, hbytes.mpr hpieces,
    (hdigest fun h => absurd h hcollision).mpr hpieces⟩

open Sample in
/-- An entry that is drawn into another value does not. -/
theorem not_always_shown : ¬ ∀ config other : SortedMap String, config ≠ other →
    fingerprintBytes config ≠ fingerprintBytes other := by
  intro h
  exact h endpoint joined (by decide) (by decide)

end Fingerprint
end BridgeOperator
