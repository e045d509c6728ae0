/-
Scopes as documents and resolvers give them: a text that names a scope, or null.  Bytes name
a scope only as a blank text does.
-/

import ModulePlan.Fault

namespace ModulePlan.Scope

/-- Is a byte a space, or one of the controls from the tabulator to the carriage return? -/
def isBlankByte (byte : UInt8) : Bool :=
  byte = 32 || (9 ≤ byte && byte ≤ 13)

/-- The scope that a value names.  Null names the scope of a dependency without any. -/
def ofValue : Document.Value → Except Fault Scope
  | .null => .ok .compile
  | .text text =>
    match parse? (some text) with
    | some scope => .ok scope
    | .none => .error (.value (.unknownScope text))
  | .bytes data =>
    if data.all isBlankByte then .ok .compile else .error (.kind .scopeOfBytes)
  | _ => .error (.kind .scopeNotText)

end ModulePlan.Scope
