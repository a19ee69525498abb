import ArenaJs.Engine.Define

/-!
# Runs

`step` dispatches a call to its function and `exec` gives it fuel: a call, nested ones included, is
followed to the given depth.
-/

namespace ArenaJs.Heap

/-- Code outside the property layer runs. -/
def runProg (k : Calls) : Prog → M Ret
  | .ret (.ok r) => return r
  | .ret (.error e) => throw (.throw e)
  | .op o next => do
    let r ← onThrow (do return Except.ok (← k.run o)) fun e => return Except.error e
    runProg k (next r)

/-- The next callback. -/
def callback (env : Env) (k : Calls) (c : Callback) : M Ret := do
  let s ← get
  set { s with calls := s.calls + 1 }
  runProg k (env.code s.calls c)

/-- One call. -/
def step (env : Env) (k : Calls) : Op → M Ret
  | .getPropertyInternal obj prop thisObj throwRefError =>
    return .value (← getPropertyInternal env k obj prop thisObj throwRefError)
  | .getPropertyInt64 obj idx => return .value (← getPropertyInt64 env k obj idx)
  | .hasProperty obj prop => return .bool (← hasProperty env k obj prop)
  | .getOwnPropertyInternal2 p prop want =>
    return .desc (← getOwnPropertyInternal2 env k p prop want)
  | .getPrototype obj => return .value (← getPrototype env k obj)
  | .isExtensible obj => return .bool (← isExtensible env k obj)
  | .setPropertyInternal2 obj prop val thisObj flags =>
    return .bool (← setPropertyInternal2 env k obj prop val thisObj flags)
  | .setPropertyValue thisObj prop val flags =>
    return .bool (← setPropertyValue env k thisObj prop val flags)
  | .createProperty p prop val getter setter flags =>
    return .bool (← createProperty env k p prop val getter setter flags)
  | .setPrototypeInternal obj protoVal throwFlag =>
    return .bool (← setPrototypeInternal env k obj protoVal throwFlag)
  | .preventExtensions obj => return .bool (← preventExtensions env k obj)
  | .call c => callback env k c

/-- A call with `fuel` levels of calls below it. -/
def exec (env : Env) : Nat → Op → M Ret
  | 0, _ => throw .timeout
  | fuel + 1, op => step env ⟨fuel, exec env fuel⟩ op

end ArenaJs.Heap
