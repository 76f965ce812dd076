import RecordDiff.Proofs.Utf8

/-!
The order of texts by their octets. UTF-8 keeps the order of characters, so that names which are
sorted character by character are sorted octet by octet as well. Main statements:

- `before_encodeChar_append`: of two characters the lesser has the lesser octets, and what stands
  behind them has no part in it;
- `lt_iff_before`: the order of names is the order of their octets.
-/

namespace RecordDiff.Text.Utf8

/-- The order of octets one behind the other: where the two sides differ first the front one has the
lesser octet, or it ends there. -/
abbrev OctetsBefore : List UInt8 → List UInt8 → Prop :=
  List.Lex fun octet other => octet < other

/-- Whether a name comes before another one by its octets. -/
def Before (name other : String) : Prop :=
  OctetsBefore (encode name.toList) (encode other.toList)

/-! ### Characters -/

section Characters

variable {n m : Nat} {front back : List UInt8}

theorem before_ofNat_cons (octet : n < 256) (other : m < 256) :
    OctetsBefore (UInt8.ofNat n :: front) (UInt8.ofNat m :: back) ↔
      n < m ∨ n = m ∧ OctetsBefore front back := by
  unfold OctetsBefore
  rw [List.cons_lex_cons_iff, UInt8.lt_iff_toNat_lt, ← UInt8.toNat_inj, UInt8.toNat_ofNat',
    UInt8.toNat_ofNat', Nat.mod_eq_of_lt octet, Nat.mod_eq_of_lt other]

theorem lt_of_six (less : n < m) : n / 64 < m / 64 ∨ n / 64 = m / 64 ∧ n % 64 < m % 64 := by
  omega

/-- Of two numbers the lesser is less where their bits differ first, taken by sixes from the top. -/
theorem lt_of_sixes (less : n < m) :
    n / 262144 < m / 262144 ∨ n / 262144 = m / 262144 ∧
      (n / 4096 % 64 < m / 4096 % 64 ∨ n / 4096 % 64 = m / 4096 % 64 ∧
        (n / 64 % 64 < m / 64 % 64 ∨ n / 64 % 64 = m / 64 % 64 ∧ n % 64 < m % 64)) := by
  have above (k : Nat) : k / 4096 = k / 64 / 64 ∧ k / 262144 = k / 64 / 64 / 64 := by omega
  rw [(above n).2, (above m).2, (above n).1, (above m).1]
  rcases lt_of_six less with high | ⟨same, last⟩
  · rcases lt_of_six high with higher | ⟨same, third⟩
    · rcases lt_of_six higher with highest | ⟨same, second⟩
      · exact .inl highest
      · exact .inr ⟨same, .inl second⟩
    · rw [same]
      exact .inr ⟨rfl, .inr ⟨rfl, .inl third⟩⟩
  · rw [same]
    exact .inr ⟨rfl, .inr ⟨rfl, .inr ⟨rfl, last⟩⟩⟩

/-- Of two characters the lesser has the lesser octets, whatever stands behind them. -/
theorem before_encodeChar_append {c d : Char} (less : c < d) :
    OctetsBefore (String.utf8EncodeChar c ++ front) (String.utf8EncodeChar d ++ back) := by
  have value : c.val.toNat < d.val.toNat := less
  have highest : d.val.toNat < 0x110000 := by
    have valid := d.valid
    unfold UInt32.isValidChar Nat.isValidChar at valid
    omega
  have sixes := lt_of_sixes value
  simp only [String.utf8EncodeChar]
  generalize c.val.toNat = n at *
  generalize d.val.toNat = m at *
  have leadN : n / 262144 % 8 = n / 262144 := Nat.mod_eq_of_lt (by omega)
  have leadM : m / 262144 % 8 = m / 262144 := Nat.mod_eq_of_lt (by omega)
  rw [leadN, leadM]
  -- characters of different lengths differ in their first octet, the others in the first of
  -- their sixes that differs
  repeat' split
  all_goals simp (disch := omega) only [List.cons_append, List.nil_append, before_ofNat_cons]
  all_goals omega

end Characters

/-! ### Texts -/

section Texts

variable {front back : List Char}

theorem before_append_left {octets front back : List UInt8} (before : OctetsBefore front back) :
    OctetsBefore (octets ++ front) (octets ++ back) := by
  induction octets with
  | nil => exact before
  | cons octet rest ih => exact .cons ih

theorem before_encode (less : List.Lex (fun c d : Char => c < d) front back) :
    OctetsBefore (encode front) (encode back) := by
  induction less with
  | @nil d more =>
    rw [encode_cons]
    cases octets : String.utf8EncodeChar d with
    | nil => exact absurd octets String.utf8EncodeChar_ne_nil
    | cons octet rest => exact .nil
  | @cons c rest more less ih =>
    rw [encode_cons, encode_cons]
    exact before_append_left ih
  | @rel c rest d more less =>
    rw [encode_cons, encode_cons]
    exact before_encodeChar_append less

/-- The order of names is the order of their octets. -/
theorem lt_iff_before {name other : String} : name < other ↔ Before name other := by
  have forward {name other : String} (less : name < other) : Before name other :=
    before_encode (String.lt_iff.1 less)
  refine ⟨forward, fun before => ?_⟩
  rcases Std.lt_trichotomy name other with less | same | greater
  · exact less
  · subst same
    exact absurd before (List.lex_irrefl UInt8.lt_irrefl _)
  · exact absurd before (List.lex_asymm (fun less => UInt8.lt_asymm less) (forward greater))

end Texts

end RecordDiff.Text.Utf8
