import ViewTree.Proofs.Json.Spelling

namespace ViewTree

open Json.Reader

def Unblank (text : List Char) : Prop := ∀ c ∈ text, isSpace c = false

namespace Unblank

instance (text : List Char) : Decidable (Unblank text) :=
  decidable_of_iff (text.all fun c => !isSpace c) (by simp [Unblank])

theorem append {left right : List Char} (first : Unblank left) (second : Unblank right) :
    Unblank (left ++ right) := List.forall_mem_append.2 ⟨first, second⟩

theorem subset {part text : List Char} (whole : Unblank text) (inside : part ⊆ text) : Unblank part :=
  fun c member => whole c (inside member)

theorem eq_nil {text : List Char} (unblank : Unblank text) (blank : Blank text) : text = [] := by
  cases text with
  | nil => rfl
  | cons c text =>
    have space := blank c List.mem_cons_self
    rw [unblank c List.mem_cons_self] at space
    cases space

theorem zeros (n : Nat) : Unblank (List.replicate n '0') := by
  intro c member
  rw [List.eq_of_mem_replicate member]
  rfl

theorem toDigits (n : Nat) : Unblank (Nat.toDigits 10 n) :=
  fun c member => isSpace_of_numeral (.inr (toDigits_isDigit c member))

theorem decimalText (d : Decimal) : Unblank (Number.decimalText d) := by
  have digits := toDigits d.digits
  have front (n : Nat) := digits.subset (List.take_subset n _)
  have back (n : Nat) := digits.subset (List.drop_subset n _)
  simp only [Number.decimalText]
  split
  · split
    · exact ((by decide : Unblank ['0', '.']).append (zeros _)).append digits
    · split
      · exact (digits.append (zeros _)).append (by decide)
      · exact ((front _).append (by decide)).append (back _)
  · have point : Unblank (if (Nat.toDigits 10 d.digits).length = 1 then [] else ['.']) := by
      split <;> decide
    have power (down : Prop) [Decidable down] : Unblank ['e', if down then '-' else '+'] := by
      split <;> decide
    exact ((((front 1).append point).append (back 1)).append (power _)).append (toDigits _)

theorem magnitudeText (m : Magnitude) : Unblank (Number.magnitudeText m) := by
  unfold Number.magnitudeText
  split
  · decide
  · exact decimalText m.shortest

theorem numberText (number : Number) : Unblank number.text := by
  have minus : Unblank ['-'] := by decide
  cases number with
  | integer value within =>
    simp only [Number.text, Number.intText]
    split
    · exact minus.append (toDigits _)
    · exact toDigits _
  | float negative m =>
    simp only [Number.text]
    split
    · exact minus.append (magnitudeText m)
    · exact magnitudeText m

end Unblank

theorem Number.readsBack_of_parse {number : Number}
    (alone : Json.parse (String.ofList number.text) = .ok (.number number)) : number.ReadsBack := by
  obtain ⟨written, ⟨start, rest, gap, begins, blank⟩, -, means⟩ := Json.parse_iff_spells.1 alone
  rw [String.toList_ofList] at gap
  have unblank := Unblank.numberText number
  generalize text : number.text = whole at gap unblank
  cases gap with
  | @blank before spaces =>
    cases begins with
    | @number numeral front spelled rest =>
      -- The numeral is the whole text, for what may stand before and behind it is blank.
      have leading : before = [] := (unblank.subset (List.subset_append_left ..)).eq_nil spaces
      have trailing : rest = [] := by
        apply (unblank.subset _).eq_nil blank
        rw [← List.append_assoc]
        exact List.subset_append_right ..
      rw [leading, trailing, List.nil_append, List.append_nil] at text
      have value : numeral.value = .ok number := by
        cases taken : numeral.value with
        | ok value =>
          rw [taken] at means
          cases means
          rfl
        | error unread =>
          rw [taken] at means
          cases means
      intro rest ends
      simp only [Json.Reader.number, text, Json.numeral_spelled spelled ends, value, bind, Except.bind]
    | _ => simp [Json.Written.value?] at means

end ViewTree
