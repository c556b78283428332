import BridgeOperator.Encoding.Base64

/-!
Base64 reads back what it has written: first the bytes, three of them for every four letters, then
the text whose bytes they are.
-/

namespace BridgeOperator

theorem toByteArray_eq_utf8 (s : String) : s.toByteArray = ⟨(utf8 s).toArray⟩ := by
  have hlist : s.toByteArray = s.toList.utf8Encode := by
    rw [← String.toByteArray_ofList, String.ofList_toList]
  rw [hlist]
  exact ByteArray.ext List.data_toByteArray

theorem fromUTF8?_utf8 (s : String) : String.fromUTF8? ⟨(utf8 s).toArray⟩ = some s := by
  rw [← toByteArray_eq_utf8, String.fromUTF8?, dif_pos s.isValidUTF8]
  rfl

namespace Base64

theorem value?_letter {n : Nat} (h : n < 64) : value? (letter n) = some n := by
  have hall : ∀ n : Fin 64, value? (letter n) = some n.val := by decide
  exact hall ⟨n, h⟩

theorem letter_ne_padding {n : Nat} (h : n < 64) : letter n ≠ '=' := by
  have hall : ∀ n : Fin 64, letter n ≠ '=' := by decide
  exact hall ⟨n, h⟩

/-- The byte that a number ends in. -/
theorem ofNat_eq {a : UInt8} {n : Nat} (h : n % 256 = a.toNat) : UInt8.ofNat n = a := by
  rw [← UInt8.toNat_inj, UInt8.toNat_ofNat']
  exact h

/-- Four letters of the alphabet stand for three bytes, whatever comes after them. -/
theorem decodeBytes?_four {a b c d : Nat} (ha : a < 64) (hb : b < 64) (hc : c < 64) (hd : d < 64)
    (rest : List Char) :
    decodeBytes? (letter a :: letter b :: letter c :: letter d :: rest) =
      (decodeBytes? rest).map fun tail =>
        let n := ((a * 64 + b) * 64 + c) * 64 + d
        UInt8.ofNat (n / 65536) :: UInt8.ofNat (n / 256) :: UInt8.ofNat n :: tail := by
  rw [decodeBytes?]
  · simp only [value?_letter, ha, hb, hc, hd]
    cases decodeBytes? rest <;> rfl
  · exact fun _ hpad _ => absurd hpad (letter_ne_padding hd)
  · exact fun hpad _ => absurd hpad (letter_ne_padding hd)

theorem decodeBytes?_three {a b c : Nat} (ha : a < 64) (hb : b < 64) (hc : c < 64)
    (hzero : c % 4 = 0) :
    decodeBytes? [letter a, letter b, letter c, '='] =
      let n := (a * 64 + b) * 64 + c
      some [UInt8.ofNat (n / 1024), UInt8.ofNat (n / 4)] := by
  rw [decodeBytes?]
  · simp only [value?_letter, ha, hb, hc]
    exact if_pos (by omega)
  · exact fun hpad => absurd hpad (letter_ne_padding hc)

theorem decodeBytes?_two {a b : Nat} (ha : a < 64) (hb : b < 64) (hzero : b % 16 = 0) :
    decodeBytes? [letter a, letter b, '=', '='] =
      some [UInt8.ofNat ((a * 64 + b) / 16)] := by
  rw [decodeBytes?]
  simp only [value?_letter, ha, hb]
  exact if_pos (by omega)

theorem decodeBytes?_encodeBytes (bytes : List UInt8) :
    decodeBytes? (encodeBytes bytes) = some bytes := by
  fun_induction encodeBytes bytes with
  | case1 => rfl
  | case2 a n =>
    have := a.toNat_lt
    rw [decodeBytes?_two (by omega) (by omega) (by omega), ofNat_eq (a := a) (by omega)]
  | case3 a b n =>
    have := a.toNat_lt
    have := b.toNat_lt
    rw [decodeBytes?_three (by omega) (by omega) (by omega) (by omega)]
    have hn : (n / 4096 * 64 + n / 64 % 64) * 64 + n % 64 = n := by omega
    simp only [hn, Option.some.injEq, List.cons.injEq, and_true]
    exact ⟨ofNat_eq (by omega), ofNat_eq (by omega)⟩
  | case4 a b c rest n ih =>
    have := a.toNat_lt
    have := b.toNat_lt
    have := c.toNat_lt
    rw [decodeBytes?_four (by omega) (by omega) (by omega) (by omega), ih]
    have hn : ((n / 262144 * 64 + n / 4096 % 64) * 64 + n / 64 % 64) * 64 + n % 64 = n := by omega
    simp only [hn, Option.map_some, Option.some.injEq, List.cons.injEq, and_true]
    exact ⟨ofNat_eq (by omega), ofNat_eq (by omega), ofNat_eq (by omega)⟩

theorem decodeBytes?_encode (s : String) : decodeBytes? (encode s).toList = some (utf8 s) := by
  unfold encode
  rw [String.toList_ofList, decodeBytes?_encodeBytes]

theorem decode?_encode (s : String) : decode? (encode s) = some s := by
  unfold decode?
  rw [decodeBytes?_encode]
  exact fromUTF8?_utf8 s

end Base64
end BridgeOperator
