import BridgeOperator.Proofs.Json.Lexer
import Mathlib.Data.List.Basic

/-!
Texts that give a host and a port. A host is a name or an address. An address of version 6 has
colons itself and so stands in brackets before a port. A text has at most one reading
(`Reads.unique`), and a host with a colon and a port behind it is read as that host and port unless
it is an address of version 6 that lacks the brackets (`leads_iff`).
-/

namespace BridgeOperator.Network

variable {s text host host' ds : List Char} {port port' : UInt16} {n : ℕ}

/-! ## Hosts -/

def isNameChar (c : Char) : Bool := c.isAlphanum || c = '-' || c = '.' || c = '_'

/-- The name of a host; an address of version 4 is one too. -/
structure Name (s : List Char) : Prop where
  nonempty : s ≠ []
  chars : ∀ c ∈ s, isNameChar c = true

/-- A number below 256. -/
structure Octet (s : List Char) : Prop where
  nonempty : s ≠ []
  digits : ∀ c ∈ s, c.isDigit = true
  small : Nat.ofDigitChars 10 s 0 < 256

inductive IPv4 : List Char → Prop where
  | dotted {a b c d : List Char} : Octet a → Octet b → Octet c → Octet d →
      IPv4 (a ++ '.' :: (b ++ '.' :: (c ++ '.' :: d)))

def isHexDigit (c : Char) : Bool := c.isDigit || ('a' ≤ c && c ≤ 'f') || ('A' ≤ c && c ≤ 'F')

/-- One to four hexadecimal digits. -/
structure Hextet (s : List Char) : Prop where
  nonempty : s ≠ []
  short : s.length ≤ 4
  digits : ∀ c ∈ s, isHexDigit c = true

/-- So many groups of an address with colons between them. An address of version 4 may stand for
the last two. -/
inductive Groups : ℕ → List Char → Prop where
  | last {s : List Char} : Hextet s → Groups 1 s
  | dotted {s : List Char} : IPv4 s → Groups 2 s
  | cons {s rest : List Char} {n : ℕ} : Hextet s → Groups n rest →
      Groups (n + 1) (s ++ ':' :: rest)

/-- What stands on one side of a gap. -/
inductive Side : ℕ → List Char → Prop where
  | none : Side 0 []
  | some {n : ℕ} {s : List Char} : Groups n s → Side n s

/-- Eight groups, or fewer with a gap. -/
inductive IPv6 : List Char → Prop where
  | full {s : List Char} : Groups 8 s → IPv6 s
  | gap {front back : List Char} {n m : ℕ} : Side n front → '.' ∉ front → Side m back → n + m < 8 →
      IPv6 (front ++ ':' :: ':' :: back)

theorem IPv4.chars (h : IPv4 s) : ∀ c ∈ s, c.isDigit = true ∨ c = '.' := by
  cases h with
  | dotted ha hb hc hd =>
    simp only [List.mem_append, List.mem_cons]
    rintro x (hx | rfl | hx | rfl | hx | rfl | hx)
    exacts [.inl (ha.digits x hx), .inr rfl, .inl (hb.digits x hx), .inr rfl,
      .inl (hc.digits x hx), .inr rfl, .inl (hd.digits x hx)]

theorem IPv4.name (h : IPv4 s) : Name s where
  nonempty := by
    cases h
    simp
  chars c hc := by
    rcases h.chars c hc with hdigit | rfl
    · simp [isNameChar, Char.isAlphanum, hdigit]
    · rfl

def isAddressChar (c : Char) : Bool := isHexDigit c || c = ':' || c = '.'

theorem isAddressChar_of_hexDigit {c : Char} (h : isHexDigit c = true) :
    isAddressChar c = true := by
  simp [isAddressChar, h]

theorem Groups.chars (h : Groups n s) : ∀ c ∈ s, isAddressChar c = true := by
  induction h with
  | last hs => exact fun c hc => isAddressChar_of_hexDigit (hs.digits c hc)
  | dotted hs =>
    intro c hc
    rcases hs.chars c hc with hdigit | rfl
    · exact isAddressChar_of_hexDigit (by simp [isHexDigit, hdigit])
    · rfl
  | cons hs _ ih =>
    intro c hc
    rcases List.mem_append.mp hc with hc | hc
    · exact isAddressChar_of_hexDigit (hs.digits c hc)
    · rcases List.mem_cons.mp hc with rfl | hc
      exacts [rfl, ih c hc]

theorem Side.chars (h : Side n s) : ∀ c ∈ s, isAddressChar c = true := by
  cases h with
  | none => exact fun _ => nofun
  | some h => exact h.chars

theorem IPv6.chars (h : IPv6 s) : ∀ c ∈ s, isAddressChar c = true := by
  cases h with
  | full h => exact h.chars
  | gap hfront _ hback _ =>
    simp only [List.mem_append, List.mem_cons]
    rintro c (hc | rfl | rfl | hc)
    exacts [hfront.chars c hc, rfl, rfl, hback.chars c hc]

/-- One group alone would have no colon, but there are eight or a gap. -/
theorem IPv6.colon_mem (h : IPv6 s) : ':' ∈ s := by
  cases h with
  | full h =>
    cases h
    simp
  | gap => simp

theorem notMem_of_forall {p : Char → Bool} {c : Char} (h : ∀ c ∈ s, p c = true)
    (hc : p c = false) : c ∉ s := fun hmem => by
  rw [h c hmem] at hc
  contradiction

theorem append_ne_bracket {a b : List Char} (hne : s ≠ []) (hs : '[' ∉ s) :
    s ++ a ≠ '[' :: b := by
  cases s with
  | nil => exact absurd rfl hne
  | cons c rest =>
    intro heq
    obtain ⟨rfl, -⟩ := List.cons.inj heq
    exact hs List.mem_cons_self

theorem Name.colon_notMem (h : Name s) : ':' ∉ s := notMem_of_forall h.chars rfl

theorem Name.not_ipv6 (h : Name s) : ¬ IPv6 s := fun haddress =>
  h.colon_notMem haddress.colon_mem

theorem Name.append_ne {a b : List Char} (h : Name s) : s ++ a ≠ '[' :: b :=
  append_ne_bracket h.nonempty (notMem_of_forall h.chars rfl)

theorem IPv6.append_ne {a b : List Char} (h : IPv6 s) : s ++ a ≠ '[' :: b :=
  append_ne_bracket (List.ne_nil_of_mem h.colon_mem) (notMem_of_forall h.chars rfl)

/-! ## Hosts with ports -/

/-- The digits of a port. -/
structure PortText (port : UInt16) (s : List Char) : Prop where
  nonempty : s ≠ []
  digits : ∀ c ∈ s, c.isDigit = true
  value : Nat.ofDigitChars 10 s 0 = port.toNat

/-- The text gives the host and the port. -/
inductive Reads : List Char → List Char → UInt16 → Prop where
  | name {host ds : List Char} {port : UInt16} : Name host → PortText port ds →
      Reads (host ++ ':' :: ds) host port
  | address {host ds : List Char} {port : UInt16} : IPv6 host → PortText port ds →
      Reads ('[' :: (host ++ ']' :: ':' :: ds)) host port

/-- The text gives the host and the port and nothing else. -/
def Leads (text host : List Char) (port : UInt16) : Prop :=
  ∀ host' port', Reads text host' port' ↔ host' = host ∧ port' = port

theorem portText_toDigits (port : UInt16) : PortText port (Nat.toDigits 10 port.toNat) where
  nonempty := Nat.toDigits_ne_nil
  digits := Json.digits_isDigit
  value := Nat.ofDigitChars_ten_toDigits

theorem PortText.port_eq (h : PortText port ds) (h' : PortText port' ds) : port = port' :=
  UInt16.toNat_inj.mp (h.value.symm.trans h'.value)

theorem PortText.colon_notMem (h : PortText port ds) : ':' ∉ ds := notMem_of_forall h.digits rfl

theorem PortText.bracket_notMem (h : PortText port ds) : ']' ∉ ':' :: ds := by
  simp [notMem_of_forall h.digits (c := ']') rfl]

/-- The colon of a name with a port is the only one. -/
theorem Reads.of_name (hhost : Name host) (hport : PortText port ds)
    (h : Reads (host ++ ':' :: ds) host' port') : host' = host ∧ port' = port := by
  generalize htext : host ++ ':' :: ds = text at h
  cases h with
  | name _ hport' =>
    obtain ⟨rfl, -, rfl⟩ :=
      (List.append_cons_inj_of_notMem hhost.colon_notMem hport.colon_notMem).mp htext
    exact ⟨rfl, hport'.port_eq hport⟩
  | address => exact absurd htext hhost.append_ne

/-- The closing bracket is the only one. -/
theorem Reads.of_address (hhost : IPv6 host) (hport : PortText port ds)
    (h : Reads ('[' :: (host ++ ']' :: ':' :: ds)) host' port') : host' = host ∧ port' = port := by
  generalize htext : '[' :: (host ++ ']' :: ':' :: ds) = text at h
  cases h with
  | name hhost' => exact absurd htext.symm hhost'.append_ne
  | address _ hport' =>
    obtain ⟨-, htail⟩ := List.cons.inj htext
    obtain ⟨rfl, -, hports⟩ := (List.append_cons_inj_of_notMem (notMem_of_forall hhost.chars rfl)
      hport.bracket_notMem).mp htail
    cases hports
    exact ⟨rfl, hport'.port_eq hport⟩

/-- **A text has at most one reading.** -/
theorem Reads.unique (h : Reads text host port) (h' : Reads text host' port') :
    host' = host ∧ port' = port := by
  cases h with
  | name hhost hport => exact Reads.of_name hhost hport h'
  | address hhost hport => exact Reads.of_address hhost hport h'

/-- A bare address has a colon before that of the port. -/
theorem not_reads_bare (hhost : IPv6 host) : ¬ Reads (host ++ ':' :: ds) host' port' := by
  intro h
  generalize htext : host ++ ':' :: ds = text at h
  cases h with
  | name hhost' hport =>
    obtain ⟨rfl, -⟩ :=
      (List.append_cons_inj_of_notMem hhost'.colon_notMem hport.colon_notMem).mp htext.symm
    exact hhost'.not_ipv6 hhost
  | address => exact absurd htext hhost.append_ne

/-! ## Spellings -/

/-- How a host is given where no port follows: as it is, or an address in brackets. -/
inductive Spells : List Char → List Char → Prop where
  | name {host : List Char} : Name host → Spells host host
  | bare {host : List Char} : IPv6 host → Spells host host
  | bracketed {host : List Char} : IPv6 host → Spells ('[' :: (host ++ [']'])) host

theorem Reads.leads (h : Reads text host port) : Leads text host port := by
  refine fun _ _ => ⟨h.unique, ?_⟩
  rintro ⟨rfl, rfl⟩
  exact h

/-- **A host leads where it should unless it is a bare address of version 6.** -/
theorem leads_iff (h : Spells text host) (hport : PortText port ds) :
    Leads (text ++ ':' :: ds) host port ↔ ¬ IPv6 text := by
  cases h with
  | name hhost =>
    exact iff_of_true (Reads.name hhost hport).leads hhost.not_ipv6
  | bare hhost =>
    exact iff_of_false (fun hleads => not_reads_bare hhost ((hleads _ _).mpr ⟨rfl, rfl⟩))
      (not_not_intro hhost)
  | bracketed hhost =>
    have htext : '[' :: (host ++ [']']) ++ ':' :: ds = '[' :: (host ++ ']' :: ':' :: ds) := by simp
    rw [htext]
    exact iff_of_true (Reads.address hhost hport).leads fun haddress =>
      haddress.append_ne (List.append_nil _)

end BridgeOperator.Network
