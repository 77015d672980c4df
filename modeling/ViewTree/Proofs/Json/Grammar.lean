import ViewTree.Proofs.Json.Numbers

namespace ViewTree

namespace Numeral

def Digits (text : List Char) : Prop := text ≠ [] ∧ ∀ c ∈ text, c.isDigit = true

inductive WholeSpelled : List Char → Prop
  | zero : WholeSpelled ['0']
  | digits {c : Char} {digits : List Char} (notZero : c ≠ '0') (all : ∀ d ∈ c :: digits, d.isDigit = true) :
    WholeSpelled (c :: digits)

inductive FractionSpelled : List Char → List Char → Prop
  | absent : FractionSpelled [] []
  | point {digits : List Char} (some : Digits digits) : FractionSpelled digits ('.' :: digits)

inductive ExponentSpelled : Option (Bool × List Char) → List Char → Prop
  | absent : ExponentSpelled none []
  | plain {mark : Char} {digits : List Char} (marked : mark = 'e' ∨ mark = 'E') (some : Digits digits) :
    ExponentSpelled (.some (false, digits)) (mark :: digits)
  | up {mark : Char} {digits : List Char} (marked : mark = 'e' ∨ mark = 'E') (some : Digits digits) :
    ExponentSpelled (.some (false, digits)) (mark :: '+' :: digits)
  | down {mark : Char} {digits : List Char} (marked : mark = 'e' ∨ mark = 'E') (some : Digits digits) :
    ExponentSpelled (.some (true, digits)) (mark :: '-' :: digits)

inductive Spelled : Numeral → List Char → Prop
  | positive {whole fraction point power : List Char} {exponent : Option (Bool × List Char)}
    (first : WholeSpelled whole) (second : FractionSpelled fraction point)
    (third : ExponentSpelled exponent power) :
    Spelled ⟨false, whole, fraction, exponent⟩ (whole ++ (point ++ power))
  | negative {whole fraction point power : List Char} {exponent : Option (Bool × List Char)}
    (first : WholeSpelled whole) (second : FractionSpelled fraction point)
    (third : ExponentSpelled exponent power) :
    Spelled ⟨true, whole, fraction, exponent⟩ ('-' :: (whole ++ (point ++ power)))

theorem WholeSpelled.cons {whole : List Char} (spelled : WholeSpelled whole) :
    ∃ c digits, whole = c :: digits ∧ c.isDigit = true := by
  cases spelled with
  | zero => exact ⟨_, _, rfl, rfl⟩
  | digits _ all => exact ⟨_, _, rfl, all _ List.mem_cons_self⟩

theorem Spelled.cons {numeral : Numeral} {text : List Char} (spelled : numeral.Spelled text) :
    ∃ c more, text = c :: more ∧ (c = '-' ∨ c.isDigit = true) := by
  cases spelled with
  | positive first =>
    obtain ⟨c, digits, rfl, digit⟩ := first.cons
    exact ⟨_, _, rfl, .inr digit⟩
  | negative => exact ⟨_, _, rfl, .inl rfl⟩

end Numeral

namespace Json

open Reader (Blank isSpace hexValue Ends skipSpace)

/-- What a string is put together from: characters, and code units given by their numbers. -/
inductive Piece where
  | plain (c : Char)
  | unit (value : Nat)

def shortEscapes : List (Char × Char) :=
  [('"', '"'), ('\\', '\\'), ('/', '/'), ('b', '\x08'), ('f', '\x0c'), ('n', '\n'), ('r', '\r'), ('t', '\t')]

inductive PieceBegins : Piece → List Char → List Char → Prop
  | plain {c : Char} (notQuote : c ≠ '"') (notBackslash : c ≠ '\\') (printable : ¬ c.toNat < 0x20)
    (rest : List Char) : PieceBegins (.plain c) (c :: rest) rest
  | short {letter c : Char} (stands : (letter, c) ∈ shortEscapes) (rest : List Char) :
    PieceBegins (.plain c) ('\\' :: letter :: rest) rest
  | unit {a b c d : Char} {w x y z : Nat} (first : hexValue a = some w) (second : hexValue b = some x)
    (third : hexValue c = some y) (fourth : hexValue d = some z) (rest : List Char) :
    PieceBegins (.unit (((w * 16 + x) * 16 + y) * 16 + z)) ('\\' :: 'u' :: a :: b :: c :: d :: rest) rest

/-- The pieces up to the closing quote, which is passed over. -/
inductive PiecesBegin : List Piece → List Char → List Char → Prop
  | close (rest : List Char) : PiecesBegin [] ('"' :: rest) rest
  | piece {piece : Piece} {pieces : List Piece} {text next rest : List Char}
    (first : PieceBegins piece text next) (others : PiecesBegin pieces next rest) :
    PiecesBegin (piece :: pieces) text rest

/-- The characters that pieces stand for; none if a half of a surrogate pair has not got the other. -/
def Piece.content : List Piece → Option (List Char)
  | [] => some []
  | .plain c :: pieces => (content pieces).map (c :: ·)
  | .unit high :: pieces =>
    if 0xDC00 ≤ high ∧ high ≤ 0xDFFF then none
    else if 0xD800 ≤ high ∧ high ≤ 0xDBFF then
      match pieces with
      | .unit low :: pieces =>
        if 0xDC00 ≤ low ∧ low ≤ 0xDFFF then
          (content pieces).map (Char.ofNat (0x10000 + (high - 0xD800) * 0x400 + (low - 0xDC00)) :: ·)
        else none
      | _ => none
    else (content pieces).map (Char.ofNat high :: ·)

inductive Quoted : Option String → List Char → List Char → Prop
  | quote {pieces : List Piece} {text rest : List Char} (content : PiecesBegin pieces text rest) :
    Quoted ((Piece.content pieces).map String.ofList) ('"' :: text) rest

/-- A value as it is written. A numeral beyond the greatest double and a string that is no text have no
content. -/
inductive Written where
  | null
  | boolean (value : Bool)
  | number (value : Option Number)
  | string (text : Option String)
  | list (items : List Written)
  | object (members : List (Option String × Written))

instance : Inhabited Written := ⟨.null⟩

inductive Gap : List Char → List Char → Prop
  | blank {blank : List Char} (spaces : Blank blank) (rest : List Char) : Gap (blank ++ rest) rest

/-- What stands before a part of a list or an object: nothing before the first, a comma before the others. -/
inductive Separated : Bool → List Char → List Char → Prop
  | first {text rest : List Char} (gap : Gap text rest) : Separated true text rest
  | next {text inner rest : List Char} (before : Gap text (',' :: inner)) (after : Gap inner rest) :
    Separated false text rest

mutual

/-- The text starts with the value, and the rest stands right behind it. -/
inductive Begins : Written → List Char → List Char → Prop
  | null (rest : List Char) : Begins .null ('n' :: 'u' :: 'l' :: 'l' :: rest) rest
  | yes (rest : List Char) : Begins (.boolean true) ('t' :: 'r' :: 'u' :: 'e' :: rest) rest
  | no (rest : List Char) : Begins (.boolean false) ('f' :: 'a' :: 'l' :: 's' :: 'e' :: rest) rest
  | number {numeral : Numeral} {text : List Char} (spelled : numeral.Spelled text) (rest : List Char) :
    Begins (.number numeral.value.toOption) (text ++ rest) rest
  | string {content : Option String} {text rest : List Char} (quoted : Quoted content text rest) :
    Begins (.string content) text rest
  | list {items : List Written} {text rest : List Char} (content : ItemsBegin true items text rest) :
    Begins (.list items) ('[' :: text) rest
  | object {members : List (Option String × Written)} {text rest : List Char}
    (content : MembersBegin true members text rest) : Begins (.object members) ('{' :: text) rest

/-- The items from the first or from a later one on, and the closing bracket. -/
inductive ItemsBegin : Bool → List Written → List Char → List Char → Prop
  | close {first : Bool} {text rest : List Char} (gap : Gap text (']' :: rest)) : ItemsBegin first [] text rest
  | item {first : Bool} {item : Written} {items : List Written} {text start next rest : List Char}
    (separated : Separated first text start) (begins : Begins item start next)
    (others : ItemsBegin false items next rest) : ItemsBegin first (item :: items) text rest

inductive MembersBegin : Bool → List (Option String × Written) → List Char → List Char → Prop
  | close {first : Bool} {text rest : List Char} (gap : Gap text ('}' :: rest)) : MembersBegin first [] text rest
  | member {first : Bool} {key : Option String} {value : Written} {members : List (Option String × Written)}
    {text start colon inner place next rest : List Char} (separated : Separated first text start)
    (quoted : Quoted key start colon) (before : Gap colon (':' :: inner)) (after : Gap inner place)
    (begins : Begins value place next) (others : MembersBegin false members next rest) :
    MembersBegin first ((key, value) :: members) text rest

end

namespace Written

/-- The text is a JSON text, written by the tree. -/
def Spells (written : Written) (text : String) : Prop :=
  ∃ start rest, Gap text.toList start ∧ Begins written start rest ∧ Blank rest

mutual

def depth : Written → Nat
  | .list items => depthItems items + 1
  | .object members => depthMembers members + 1
  | _ => 0

def depthItems : List Written → Nat
  | [] => 0
  | item :: items => max (depth item) (depthItems items)

def depthMembers : List (Option String × Written) → Nat
  | [] => 0
  | (_, value) :: members => max (depth value) (depthMembers members)

end

end Written

theorem Gap.append {text rest : List Char} (gap : Gap text rest) (more : List Char) :
    Gap (text ++ more) (rest ++ more) := by
  cases gap with
  | blank spaces =>
    rw [List.append_assoc]
    exact .blank spaces _

theorem Separated.append {first : Bool} {text rest : List Char} (separated : Separated first text rest)
    (more : List Char) : Separated first (text ++ more) (rest ++ more) := by
  cases separated with
  | first gap => exact .first (gap.append more)
  | next before after => exact .next (before.append more) (after.append more)

theorem PieceBegins.append {piece : Piece} {text rest : List Char} (begins : PieceBegins piece text rest)
    (more : List Char) : PieceBegins piece (text ++ more) (rest ++ more) := by
  cases begins with
  | plain notQuote notBackslash printable => exact .plain notQuote notBackslash printable _
  | short stands => exact .short stands _
  | unit first second third fourth => exact .unit first second third fourth _

theorem PiecesBegin.append {pieces : List Piece} {text rest : List Char}
    (begins : PiecesBegin pieces text rest) (more : List Char) :
    PiecesBegin pieces (text ++ more) (rest ++ more) := by
  induction begins with
  | close => exact .close _
  | piece first _ ih => exact .piece (first.append more) ih

theorem Quoted.append {content : Option String} {text rest : List Char} (quoted : Quoted content text rest)
    (more : List Char) : Quoted content (text ++ more) (rest ++ more) := by
  cases quoted with
  | quote content => exact .quote (content.append more)

mutual

theorem Begins.append {written : Written} {text rest : List Char} (begins : Begins written text rest)
    (more : List Char) : Begins written (text ++ more) (rest ++ more) := by
  match begins with
  | .null _ => exact .null _
  | .yes _ => exact .yes _
  | .no _ => exact .no _
  | .number spelled _ =>
    rw [List.append_assoc]
    exact .number spelled _
  | .string quoted => exact .string (quoted.append more)
  | .list content => exact .list (content.append more)
  | .object content => exact .object (content.append more)

theorem ItemsBegin.append {first : Bool} {items : List Written} {text rest : List Char}
    (begins : ItemsBegin first items text rest) (more : List Char) :
    ItemsBegin first items (text ++ more) (rest ++ more) := by
  match begins with
  | .close gap => exact .close (gap.append more)
  | .item separated begins others =>
    exact .item (separated.append more) (begins.append more) (others.append more)

theorem MembersBegin.append {first : Bool} {members : List (Option String × Written)}
    {text rest : List Char} (begins : MembersBegin first members text rest) (more : List Char) :
    MembersBegin first members (text ++ more) (rest ++ more) := by
  match begins with
  | .close gap => exact .close (gap.append more)
  | .member separated quoted before after begins others =>
    exact .member (separated.append more) (quoted.append more) (before.append more) (after.append more)
      (begins.append more) (others.append more)

end

theorem length_pieces {pieces : List Piece} {text rest : List Char} (begins : PiecesBegin pieces text rest) :
    pieces.length + rest.length < text.length := by
  induction begins with
  | close => simp
  | piece first _ ih =>
    cases first <;> simp only [List.length_cons] at ih ⊢ <;> omega

namespace Quoted

variable {content : Option String} {text rest : List Char}

theorem start (quoted : Quoted content text rest) : ∃ inner, text = '"' :: inner := by
  cases quoted with
  | quote => exact ⟨_, rfl⟩

theorem length_lt (quoted : Quoted content text rest) : rest.length < text.length := by
  cases quoted with
  | quote begins =>
    have enough := length_pieces begins
    rw [List.length_cons]
    omega

end Quoted

theorem Gap.length_le {text rest : List Char} (gap : Gap text rest) : rest.length ≤ text.length := by
  cases gap with
  | blank =>
    rw [List.length_append]
    exact Nat.le_add_left ..

theorem Separated.length_le {first : Bool} {text rest : List Char} (separated : Separated first text rest) :
    rest.length ≤ text.length := by
  cases separated with
  | first gap => exact gap.length_le
  | next before after =>
    have outer := before.length_le
    have inner := after.length_le
    rw [List.length_cons] at outer
    omega

mutual

theorem Begins.length_lt {written : Written} {text rest : List Char} (begins : Begins written text rest) :
    rest.length < text.length := by
  match begins with
  | .null _ | .yes _ | .no _ =>
    simp only [List.length_cons]
    omega
  | .number spelled _ =>
    obtain ⟨c, more, rfl, -⟩ := spelled.cons
    rw [List.length_append, List.length_cons]
    omega
  | .string quoted => exact quoted.length_lt
  | .list content =>
    have enough := content.length_lt
    rw [List.length_cons]
    omega
  | .object content =>
    have enough := content.length_lt
    rw [List.length_cons]
    omega

theorem ItemsBegin.length_lt {first : Bool} {items : List Written} {text rest : List Char}
    (begins : ItemsBegin first items text rest) : items.length + rest.length < text.length := by
  match begins with
  | .close gap =>
    have enough := gap.length_le
    rw [List.length_cons] at enough
    rw [List.length_nil]
    omega
  | .item separated begins others =>
    have before := separated.length_le
    have taken := begins.length_lt
    have after := others.length_lt
    rw [List.length_cons]
    omega

theorem MembersBegin.length_lt {first : Bool} {members : List (Option String × Written)}
    {text rest : List Char} (begins : MembersBegin first members text rest) :
    members.length + rest.length < text.length := by
  match begins with
  | .close gap =>
    have enough := gap.length_le
    rw [List.length_cons] at enough
    rw [List.length_nil]
    omega
  | .member separated quoted before after begins others =>
    have start := separated.length_le
    have name := quoted.length_lt
    have colon := before.length_le
    have place := after.length_le
    have taken := begins.length_lt
    have later := others.length_lt
    rw [List.length_cons] at colon ⊢
    omega

end

theorem Begins.start {written : Written} {text rest : List Char} (begins : Begins written text rest) :
    ∃ c more, text = c :: more ∧ isSpace c = false ∧ c ≠ ']' := by
  cases begins with
  | number spelled =>
    obtain ⟨c, more, rfl, first⟩ := spelled.cons
    refine ⟨c, _, rfl, Reader.isSpace_of_numeral first, ?_⟩
    rintro rfl
    revert first
    decide
  | string quoted =>
    obtain ⟨inner, rfl⟩ := quoted.start
    exact ⟨_, _, rfl, rfl, by decide⟩
  | _ => exact ⟨_, _, rfl, rfl, by decide⟩

end Json

end ViewTree
