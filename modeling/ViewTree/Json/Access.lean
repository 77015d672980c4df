import ViewTree.Json.Fault

namespace ViewTree.Json

def mismatch (value : Json) (wanted : String) : Except Cause α :=
  .error (.mismatch value.token wanted)

def asString : Json → Except Cause String
  | .string text => .ok text
  | value => value.mismatch "a string"

def asBoolean : Json → Except Cause Bool
  | .boolean value => .ok value
  | value => value.mismatch "a boolean"

def asNull : Json → Except Cause Unit
  | .null => .ok ()
  | value => value.mismatch "unit"

def asWord : Json → Except Cause UInt32
  | .number (.integer value _) =>
    if 0 ≤ value ∧ value < 0x100000000 then .ok (UInt32.ofNat value.toNat)
    else .error (.outOfRange value "u32")
  | value => value.mismatch "u32"

def required (name : String) : Option α → Except Cause α
  | some value => .ok value
  | none => .error (.missingField name)

def variant (all : List ν) (name : ν → String) (written : String) : Except Cause ν :=
  match all.find? fun v => name v = written with
  | some v => .ok v
  | none => .error (.unknownVariant written (all.map name))

end ViewTree.Json
