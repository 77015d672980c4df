import ViewTree.Proofs.Data.Storage
import ViewTree.Proofs.Number.Literal
import ViewTree.Rendering.Scope

namespace ViewTree

namespace IntegerLiteral

variable {literal : IntegerLiteral}

/-- The integer fits 64 bits, signed or not, and is no zero with a sign. -/
def Fits (literal : IntegerLiteral) : Prop :=
  (-0x8000000000000000 ≤ literal.value ∧ literal.value < 0x10000000000000000) ∧ literal.text ≠ "-0"

theorem Fits.numeral_value (fits : literal.Fits) :
    literal.numeral.value = .ok (.integer literal.value fits.1) := by
  have read : (ofInt literal.value).numeral.value = .ok (.integer literal.value fits.1) :=
    Number.value_digits fits.1
  rw [ofInt_value fits.2] at read
  exact read

theorem signed_zero_value (same : literal.text = "-0") :
    literal.numeral.value = .ok (.float true Magnitude.zero) := by
  have chars : literal.chars = (⟨true, ['0'], .zero⟩ : IntegerLiteral).chars := String.ofList_inj.1 same
  rw [chars_injective chars]
  decide +kernel

theorem exists_word (least : -0x8000000000000000 ≤ literal.value) (greatest : literal.value < 0x10000000000000000) :
    (∃ word : Int64, word.toInt = literal.value) ∨ ∃ word : UInt64, (word.toNat : Int) = literal.value := by
  by_cases negative : literal.value < 0
  · exact .inl ⟨.ofInt literal.value, Int64.toInt_ofInt_of_le least (by omega)⟩
  · have size : UInt64.size = 0x10000000000000000 := rfl
    refine .inr ⟨.ofNat literal.value.toNat, ?_⟩
    rw [UInt64.toNat_ofNat_of_lt' (by omega), Int.toNat_of_nonneg (by omega)]

end IntegerLiteral

namespace Data

variable {literal : IntegerLiteral}

theorem load_literal {data : Data} :
    load literal.text = .ok data ↔ ∃ number, literal.numeral.value = .ok number ∧ data = .number number := by
  rw [load_eq_ok]
  constructor
  · rintro ⟨value, parsed, rfl⟩
    obtain ⟨number, stands, rfl⟩ := (Json.parse_numeral literal.numeral_spelled).1 parsed
    exact ⟨number, stands, rfl⟩
  · rintro ⟨number, stands, rfl⟩
    exact ⟨_, (Json.parse_numeral literal.numeral_spelled).2 ⟨number, stands, rfl⟩, rfl⟩

theorem text_literal {number : Number} (stands : literal.numeral.value = .ok number) :
    String.ofList number.text = literal.text ↔ literal.Fits := by
  rw [IntegerLiteral.text, String.ofList_inj, Number.text_eq_iff]
  constructor
  · rintro ⟨⟨within, -⟩, unsigned⟩
    exact ⟨within, unsigned⟩
  · intro fits
    rw [fits.numeral_value] at stands
    cases stands
    exact ⟨⟨fits.1, rfl⟩, fits.2⟩

theorem exists_number (least : -0x8000000000000000 ≤ literal.value) (greatest : literal.value < 0x10000000000000000) :
    ∃ number, literal.numeral.value = .ok number := by
  by_cases signed : literal.text = "-0"
  · exact ⟨_, IntegerLiteral.signed_zero_value signed⟩
  · have fits : literal.Fits := ⟨⟨least, greatest⟩, signed⟩
    exact ⟨_, fits.numeral_value⟩

/-- A written integer of any length that is loaded is shown by its own digits if and only if it fits 64 bits, signed or
not, and is no zero with a sign. All that are in the range of 64 bits are loaded, and all of these but the zero with a
sign are the data that any word of that value is. -/
theorem load_integer (literal : IntegerLiteral) :
    (∀ data, load literal.text = .ok data → ∃ shown, Value.data.evaluate data = .ok shown ∧
      (shown.shown? = some literal.text ↔ literal.Fits) ∧
      (shown.presence = .value literal.text ↔ literal.Fits)) ∧
    (-0x8000000000000000 ≤ literal.value → literal.value < 0x10000000000000000 →
      ∃ data, load literal.text = .ok data ∧ (literal.text ≠ "-0" →
        ((∃ word : Int64, word.toInt = literal.value) ∨ ∃ word : UInt64, (word.toNat : Int) = literal.value) ∧
        (∀ word : Int64, word.toInt = literal.value → data = .ofInt64 word) ∧
        ∀ word : UInt64, (word.toNat : Int) = literal.value → data = .ofUInt64 word)) := by
  constructor
  · intro data loaded
    obtain ⟨number, stands, rfl⟩ := load_literal.1 loaded
    have same := text_literal stands
    refine ⟨.number number, rfl, ?_, ?_⟩
    · rw [Scalar.shown?, Option.some_inj, same]
    · rw [Scalar.presence, Scalar.Presence.value.injEq, same]
  · intro least greatest
    obtain ⟨number, stands⟩ := exists_number least greatest
    refine ⟨.number number, load_literal.2 ⟨number, stands, rfl⟩, ?_⟩
    intro unsigned
    have fits : literal.Fits := ⟨⟨least, greatest⟩, unsigned⟩
    rw [fits.numeral_value] at stands
    cases stands
    refine ⟨IntegerLiteral.exists_word least greatest, ?_, ?_⟩
    · intro word same
      simp only [ofInt64, Number.ofInt64, same]
    · intro word same
      simp only [ofUInt64, Number.ofUInt64, same]

theorem load_integer_rows :
    let signed : IntegerLiteral := ⟨true, ['0'], .zero⟩
    let beyond : IntegerLiteral := .ofInt 0x10000000000000000
    let greatest : IntegerLiteral := .ofInt 0xFFFFFFFFFFFFFFFF
    let least : IntegerLiteral := .ofInt (-0x8000000000000000)
    (∀ literal ∈ [signed, beyond], ∃ data shown, load literal.text = .ok data ∧
      Value.data.evaluate data = .ok shown ∧ shown.shown? ≠ some literal.text ∧
      shown.presence ≠ .value literal.text) ∧
    load greatest.text = .ok (.ofUInt64 0xFFFFFFFFFFFFFFFF) ∧ load least.text = .ok (.ofInt64 (-0x8000000000000000)) := by
  intro signed beyond greatest least
  have zero : load signed.text = .ok (.number (.float true Magnitude.zero)) := load_number (by decide +kernel)
  have double : load beyond.text =
      .ok (.number (.float false ⟨Nat.pow 2 52, 1086, by decide, by decide, by decide⟩)) :=
    load_number (by decide +kernel)
  refine ⟨List.forall_mem_cons.2 ⟨?_, List.forall_mem_singleton.2 ?_⟩, ?_, ?_⟩
  · obtain ⟨shown, evaluated, text, value⟩ := (load_integer signed).1 _ zero
    have unfit : ¬ signed.Fits := fun fits => fits.2 rfl
    exact ⟨_, shown, zero, evaluated, unfit ∘ text.1, unfit ∘ value.1⟩
  · obtain ⟨shown, evaluated, text, value⟩ := (load_integer beyond).1 _ double
    have unfit : ¬ beyond.Fits := fun fits => absurd fits.1.2 (by decide)
    exact ⟨_, shown, double, evaluated, unfit ∘ text.1, unfit ∘ value.1⟩
  · obtain ⟨data, loaded, same⟩ := (load_integer greatest).2 (by decide) (by decide)
    rw [loaded, (same (by decide)).2.2 0xFFFFFFFFFFFFFFFF (by decide)]
  · obtain ⟨data, loaded, same⟩ := (load_integer least).2 (by decide) (by decide)
    rw [loaded, (same (by decide)).2.1 (-0x8000000000000000) (by decide)]

end Data

end ViewTree
