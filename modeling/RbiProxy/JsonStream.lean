import RbiProxy.JsonDecode

/-!
# The first value of a stream

`json.Decoder`: `Decode` reads as far as the first value goes, and leaves what
stands behind it. The end of an object, an array, a string or a literal is its
last byte; a number ends before the first byte that cannot go on with it.
`More` looks at the next byte that is not a space.
-/

namespace RbiProxy

namespace Json

/-- `readValue`: the first value from here on, and what stands behind it. -/
def readValue : LexState → ParseState → GoString → Option (Value × GoString)
  | lx, ps, [] => do
    let ts ← lx.finish
    let ps ← parseRun ps ts
    let v ← ps.result
    return (v, [])
  | .number num text, .value [], b :: s =>
    match num.next b with
    | some num => readValue (.number num (text ++ [b])) (.value []) s
    | none => if num.accepts then some (.number text, b :: s) else none
  | lx, ps, b :: s => do
    let (ts, lx) ← lx.next b
    let ps ← parseRun ps ts
    match ps.result with
    | some v => return (v, s)
    | none => readValue lx ps s

def more (rest : GoString) : Bool :=
  match (rest.dropWhile isSpace).head? with
  | some c => c != 93 && c != 125
  | none => false

end Json

end RbiProxy
