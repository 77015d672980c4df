import ViewTree.Proofs.Number.Literal
import ViewTree.Proofs.Number.Written

namespace ViewTree

open Json.Reader

variable {rest rest' : List Char}

theorem Numeral.Spelled.append_inj {n n' : Numeral} {text text' : List Char} (spelled : n.Spelled text)
    (spelled' : n'.Spelled text') (ends : Ends rest) (ends' : Ends rest') (same : text ++ rest = text' ++ rest') :
    n = n' ∧ rest = rest' := by
  have read := Json.numeral_spelled spelled ends .endInValue
  rw [same, Json.numeral_spelled spelled' ends' .endInValue] at read
  cases read
  exact ⟨rfl, rfl⟩

namespace Number

variable {number other : Number}

theorem exists_spelled (number : Number) : ∃ n : Numeral, n.Spelled number.text := by
  cases number with
  | integer value within =>
    rw [text, ← IntegerLiteral.chars_ofInt]
    exact ⟨_, (IntegerLiteral.ofInt value).numeral_spelled⟩
  | float negative m =>
    obtain ⟨n, spelled, -⟩ := exists_numeral negative m
    exact ⟨n, spelled⟩

theorem eq_integer_of_text {value : Int} {within : -0x8000000000000000 ≤ value ∧ value < 0x10000000000000000}
    (same : number.text = (Number.integer value within).text) : number = .integer value within := by
  rw [text, ← IntegerLiteral.chars_ofInt] at same
  obtain ⟨⟨within', rfl⟩, -⟩ := text_eq_iff.1 same
  simp only [IntegerLiteral.value_ofInt]

theorem float_text_inj {negative negative' : Bool} {m m' : Magnitude}
    (same : (Number.float negative m).text = (Number.float negative' m').text) : negative = negative' ∧ m = m' := by
  obtain ⟨n, spelled, rfl, written, -⟩ := exists_numeral negative m
  obtain ⟨n', spelled', rfl, written', -⟩ := exists_numeral negative' m'
  obtain ⟨rfl, -⟩ := spelled.append_inj spelled' ends_nil ends_nil (congrArg (· ++ []) same)
  exact ⟨rfl, Magnitude.written_injective (written.symm.trans written')⟩

/-- No two numbers have the same text. -/
theorem text_injective : Function.Injective text := by
  intro number other same
  cases other with
  | integer value within => exact eq_integer_of_text same
  | float negative m =>
    cases number with
    | integer value within => exact (eq_integer_of_text same.symm).symm
    | float negative' m' =>
      obtain ⟨rfl, rfl⟩ := float_text_inj same
      rfl

theorem text_append_inj (ends : Ends rest) (ends' : Ends rest')
    (same : number.text ++ rest = other.text ++ rest') : number = other ∧ rest = rest' := by
  obtain ⟨n, spelled⟩ := number.exists_spelled
  obtain ⟨n', spelled'⟩ := other.exists_spelled
  obtain ⟨-, rfl⟩ := spelled.append_inj spelled' ends ends' same
  exact ⟨text_injective (List.append_cancel_right same), rfl⟩

end Number

end ViewTree
