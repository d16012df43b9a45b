/-!
# Reading bytes and bits (specification, 4.6)

A bit reader takes bytes from an input that may be interrupted, fail or pause at its end, and gives
them out whole or bit by bit, the most significant bit first. Reading goes on after an end or a
failure, with whatever the input gives next.

Out of scope: opening a file. `BitReader.ofFile` is given its contents, or that it is not there.
-/

namespace RecordSchema

/-- Why an input gave no byte, by the name of its kind. -/
structure ReadFailure where
  kind : String
deriving DecidableEq, Repr

/-- What one attempt to read from an input meets. -/
inductive Arrival where
  | byte (value : UInt8)
  /-- A failure that is to be tried again. -/
  | interruption
  /-- A read of no bytes, which is an end of the input for now. -/
  | pause
  | failure (failure : ReadFailure)
deriving DecidableEq, Repr

/-- The failure that an interruption is to who does not try again. -/
def ReadFailure.interrupted : ReadFailure := ⟨"Interrupted"⟩

/-- The failure of an input that is not there. -/
def ReadFailure.notFound : ReadFailure := ⟨"NotFound"⟩

/-- What an input has yet to give; behind the last arrival it is at its end. -/
abbrev Input := List Arrival

namespace Input

/-- The next byte, or none at an end. Interruptions are tried again. -/
def fetch : Input → Except ReadFailure (Option UInt8) × Input
  | [] => (.ok none, [])
  | .byte value :: rest => (.ok (some value), rest)
  | .interruption :: rest => fetch rest
  | .pause :: rest => (.ok none, rest)
  | .failure f :: rest => (.error f, rest)

/-- All bytes up to the first end or failure, and the failure; an interruption is one. -/
def drain : Input → List UInt8 × Option ReadFailure
  | [] | .pause :: _ => ([], none)
  | .byte value :: rest => (value :: (drain rest).1, (drain rest).2)
  | .interruption :: _ => ([], some .interrupted)
  | .failure f :: _ => ([], some f)

end Input

/-- An input and the byte that is being given out bit by bit, of which the `pending` least
significant bits are left. -/
structure BitReader where
  input : Input
  current : UInt8 := 0
  pending : Nat := 0
deriving DecidableEq, Repr

namespace BitReader

/-- A reader of the contents of a file, if there is one. -/
def ofFile (contents : Option (List UInt8)) : Except ReadFailure BitReader :=
  match contents with
  | some bytes => .ok { input := bytes.map .byte }
  | none => .error .notFound

/-- The next whole byte, or none at an end. Bits left of a byte are dropped. -/
def readByte (r : BitReader) : Except ReadFailure (Option UInt8) × BitReader :=
  let (result, input) := r.input.fetch
  (result, { r with input, pending := 0 })

/-- The next bit, or none at an end. -/
def readBit (r : BitReader) : Except ReadFailure (Option Bool) × BitReader :=
  match r.pending with
  | n + 1 => (.ok (some (r.current.toNat.testBit n)), { r with pending := n })
  | 0 =>
    match r.readByte with
    | (.ok (some value), r) =>
      (.ok (some (value.toNat.testBit 7)), { r with current := value, pending := 7 })
    | (.ok none, r) => (.ok none, r)
    | (.error f, r) => (.error f, r)

end BitReader

end RecordSchema
