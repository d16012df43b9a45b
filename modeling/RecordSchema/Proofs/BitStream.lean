import RecordSchema.BitReader

/-!
# Bits in order

A `BitStream` is what a bit reader stands for: the bits that are pending, in order, and the
arrivals that are unread. Its steps are told without the reader. A `Fetches` takes the
interruptions in front and one arrival behind them, if there is one; a bit is the first of those
pending, and if there are none a byte is fetched for it; a byte drops what is pending. The byte that
a reader holds, and how much of it is left, do not show otherwise.

Results:
* `BitReader.step_iff`: a call is the one step that the stream of the reader has for it.
* `BitReader.calls_bits`: on the boundary of a byte, bits are those of the bytes that would be read.
* `BitReader.calls_refine`: any calls, over any arrivals, are the one run of the stream.
-/

namespace RecordSchema

/-! ## Bits of a byte -/

/-- The `n` least significant bits of a byte, the most significant of them first. -/
def lowBits (value : UInt8) : Nat → List Bool
  | 0 => []
  | n + 1 => value.toNat.testBit n :: lowBits value n

/-- The bits of a byte, the most significant first. -/
def bitsOf (value : UInt8) : List Bool := [7, 6, 5, 4, 3, 2, 1, 0].map value.toNat.testBit

@[simp] theorem length_lowBits (value : UInt8) (n : Nat) : (lowBits value n).length = n := by
  induction n with
  | zero => rfl
  | succ n ih => rw [lowBits, List.length_cons, ih]

/-! ## Fetching -/

/-- What an arrival is to who reads; an interruption is to be tried again. -/
def Arrival.outcome? : Arrival → Option (Except ReadFailure (Option UInt8))
  | byte value => some (.ok (some value))
  | interruption => none
  | pause => some (.ok none)
  | failure f => some (.error f)

/-- A fetch takes the interruptions in front and one arrival behind them, and leaves the rest. Where
nothing is behind them it meets the end of the input. -/
inductive Fetches : Input → Except ReadFailure (Option UInt8) → Input → Prop
  | met (n : Nat) {a : Arrival} {outcome : Except ReadFailure (Option UInt8)} {rest : Input}
      (h : a.outcome? = some outcome) :
      Fetches (List.replicate n .interruption ++ a :: rest) outcome rest
  | ended (n : Nat) : Fetches (List.replicate n .interruption) (.ok none) []

namespace Fetches

variable {input rest : Input} {outcome : Except ReadFailure (Option UInt8)}

/-- One interruption more in front does not matter. -/
theorem interruption (h : Fetches input outcome rest) :
    Fetches (.interruption :: input) outcome rest := by
  cases h with
  | met n ha => exact .met (n + 1) ha
  | ended n => exact .ended (n + 1)

theorem fetch (input : Input) : Fetches input input.fetch.1 input.fetch.2 := by
  induction input with
  | nil => exact .ended 0
  | cons a input ih =>
    cases a with
    | interruption => exact ih.interruption
    | byte value => exact .met 0 rfl
    | pause => exact .met 0 rfl
    | failure f => exact .met 0 rfl

/-- **A fetch is what an input gives.** -/
theorem iff_fetch : Fetches input outcome rest ↔ input.fetch = (outcome, rest) := by
  constructor
  · intro h
    cases h with
    | met n ha =>
      rename_i a
      induction n with
      | zero => cases a <;> cases ha <;> rfl
      | succ n ih => exact ih
    | ended n =>
      induction n with
      | zero => rfl
      | succ n ih => exact ih
  · intro h
    have hfetch := fetch input
    rwa [h] at hfetch

/-- What a fetch leaves is the end of what there was. -/
theorem suffix (h : Fetches input outcome rest) : rest <:+ input := by
  cases h with
  | met n _ => exact (List.suffix_cons _ _).trans (List.suffix_append _ _)
  | ended n => exact List.nil_suffix

end Fetches

/-! ## Streams of bits -/

/-- What a reader can be asked for. -/
inductive Call where
  | byte
  | bit
deriving DecidableEq, Repr

/-- What it gives out. -/
inductive Piece where
  | byte (value : UInt8)
  | bit (value : Bool)
deriving DecidableEq, Repr

/-- The answer to a call: a piece, none at an end, or a failure. -/
abbrev Reply := Except ReadFailure (Option Piece)

/-- The bits that are pending, in order, and the arrivals that are unread. -/
structure BitStream where
  pending : List Bool
  unread : Input
deriving DecidableEq, Repr

namespace BitStream

/-- A call, its answer and the stream behind it. -/
inductive Step : BitStream → Call → Reply → BitStream → Prop
  /-- A pending bit is given out, and the input is left alone. -/
  | next {b : Bool} {bits : List Bool} {unread : Input} :
      Step ⟨b :: bits, unread⟩ .bit (.ok (some (.bit b))) ⟨bits, unread⟩
  /-- If none is pending, the first bit of a byte is given out and the others are pending. -/
  | first {value : UInt8} {b : Bool} {bits : List Bool} {unread rest : Input}
      (h : Fetches unread (.ok (some value)) rest) (hb : bitsOf value = b :: bits) :
      Step ⟨[], unread⟩ .bit (.ok (some (.bit b))) ⟨bits, rest⟩
  | bitEnded {unread rest : Input} (h : Fetches unread (.ok none) rest) :
      Step ⟨[], unread⟩ .bit (.ok none) ⟨[], rest⟩
  | bitFailed {f : ReadFailure} {unread rest : Input} (h : Fetches unread (.error f) rest) :
      Step ⟨[], unread⟩ .bit (.error f) ⟨[], rest⟩
  /-- For a byte, pending bits are dropped whatever is fetched. -/
  | byte {value : UInt8} {pending : List Bool} {unread rest : Input}
      (h : Fetches unread (.ok (some value)) rest) :
      Step ⟨pending, unread⟩ .byte (.ok (some (.byte value))) ⟨[], rest⟩
  | byteEnded {pending : List Bool} {unread rest : Input} (h : Fetches unread (.ok none) rest) :
      Step ⟨pending, unread⟩ .byte (.ok none) ⟨[], rest⟩
  | byteFailed {f : ReadFailure} {pending : List Bool} {unread rest : Input}
      (h : Fetches unread (.error f) rest) : Step ⟨pending, unread⟩ .byte (.error f) ⟨[], rest⟩

/-- Calls one after the other, with their answers. -/
inductive Run : BitStream → List Call → List Reply → BitStream → Prop
  | nil {m : BitStream} : Run m [] [] m
  | cons {m m₁ m₂ : BitStream} {call : Call} {calls : List Call} {reply : Reply}
      {replies : List Reply} (h : m.Step call reply m₁) (hr : Run m₁ calls replies m₂) :
      Run m (call :: calls) (reply :: replies) m₂

/-- What is unread behind a step is the end of what was. -/
theorem Step.suffix {m m' : BitStream} {call : Call} {reply : Reply}
    (h : m.Step call reply m') : m'.unread <:+ m.unread := by
  cases h with
  | next => exact List.suffix_rfl
  | first h _ => exact h.suffix
  | bitEnded h => exact h.suffix
  | bitFailed h => exact h.suffix
  | byte h => exact h.suffix
  | byteEnded h => exact h.suffix
  | byteFailed h => exact h.suffix

theorem Run.suffix {m m' : BitStream} {calls : List Call} {replies : List Reply}
    (h : m.Run calls replies m') : m'.unread <:+ m.unread := by
  induction h with
  | nil => exact List.suffix_rfl
  | cons h _ ih => exact ih.trans h.suffix

end BitStream

/-! ## What a reader stands for -/

namespace BitReader

/-- The bits left of the current byte, and the input. -/
def stream (r : BitReader) : BitStream := ⟨lowBits r.current r.pending, r.input⟩

/-- Answers one call. -/
def call (r : BitReader) : Call → Reply × BitReader
  | .byte => (r.readByte.1.map (·.map .byte), r.readByte.2)
  | .bit => (r.readBit.1.map (·.map .bit), r.readBit.2)

/-- Answers calls one after the other. -/
def calls (r : BitReader) : List Call → List Reply × BitReader
  | [] => ([], r)
  | c :: cs => ((r.call c).1 :: ((r.call c).2.calls cs).1, ((r.call c).2.calls cs).2)

theorem step_byte (r : BitReader) :
    r.stream.Step .byte (r.call .byte).1 (r.call .byte).2.stream := by
  have hfetch := Fetches.fetch r.input
  rw [call, readByte, stream, stream, lowBits]
  generalize r.input.fetch = fetched at hfetch
  obtain ⟨(f | (_ | value)), rest⟩ := fetched
  · exact .byteFailed hfetch
  · exact .byteEnded hfetch
  · exact .byte hfetch

theorem step_bit (r : BitReader) :
    r.stream.Step .bit (r.call .bit).1 (r.call .bit).2.stream := by
  obtain ⟨input, current, pending⟩ := r
  cases pending with
  | succ n => exact .next
  | zero =>
    have hfetch := Fetches.fetch input
    simp only [call, readBit, readByte]
    generalize input.fetch = fetched at hfetch
    obtain ⟨(f | (_ | value)), rest⟩ := fetched
    · exact .bitFailed hfetch
    · exact .bitEnded hfetch
    · exact .first hfetch rfl

end BitReader

namespace BitStream

/-- There is one step at most for a call. -/
theorem Step.unique {m m₁ m₂ : BitStream} {call : Call} {reply₁ reply₂ : Reply}
    (h₁ : m.Step call reply₁ m₁) (h₂ : m.Step call reply₂ m₂) : reply₁ = reply₂ ∧ m₁ = m₂ := by
  cases h₁ <;> cases h₂ <;> grind [Fetches.iff_fetch]

end BitStream

namespace BitReader

variable {r : BitReader}

/-- **A call is the one step** that the stream of the reader has for it. -/
theorem step_iff {c : Call} {reply : Reply} {m : BitStream} :
    r.stream.Step c reply m ↔ reply = (r.call c).1 ∧ m = (r.call c).2.stream := by
  have hstep : r.stream.Step c (r.call c).1 (r.call c).2.stream := by
    cases c with
    | byte => exact r.step_byte
    | bit => exact r.step_bit
  constructor
  · intro h
    exact h.unique hstep
  · rintro ⟨rfl, rfl⟩
    exact hstep

/-- **Calls are the one run** that the stream of the reader has for them. -/
theorem run_iff {cs : List Call} {replies : List Reply} {m : BitStream} :
    r.stream.Run cs replies m ↔ replies = (r.calls cs).1 ∧ m = (r.calls cs).2.stream := by
  induction cs generalizing r replies with
  | nil =>
    constructor
    · rintro ⟨⟩
      exact ⟨rfl, rfl⟩
    · rintro ⟨rfl, rfl⟩
      exact .nil
  | cons c cs ih =>
    constructor
    · rintro (_ | ⟨hstep, hrun⟩)
      obtain ⟨rfl, rfl⟩ := step_iff.mp hstep
      obtain ⟨rfl, rfl⟩ := ih.mp hrun
      exact ⟨rfl, rfl⟩
    · rintro ⟨rfl, rfl⟩
      exact .cons (step_iff.mpr ⟨rfl, rfl⟩) (ih.mpr ⟨rfl, rfl⟩)

/-- Readers that stand for one stream answer alike. -/
theorem calls_congr {r' : BitReader} (h : r.stream = r'.stream) (cs : List Call) :
    (r.calls cs).1 = (r'.calls cs).1 ∧ (r.calls cs).2.stream = (r'.calls cs).2.stream := by
  have hrun : r.stream.Run cs (r.calls cs).1 (r.calls cs).2.stream := run_iff.mpr ⟨rfl, rfl⟩
  rw [h] at hrun
  exact run_iff.mp hrun

theorem calls_append (cs ds : List Call) :
    r.calls (cs ++ ds) =
      ((r.calls cs).1 ++ ((r.calls cs).2.calls ds).1, ((r.calls cs).2.calls ds).2) := by
  induction cs generalizing r with
  | nil => rfl
  | cons c cs ih => simp only [List.cons_append, calls, ih]

/-! ## On the boundary of a byte -/

/-- Eight bits are those of the byte that would be read, and go on behind it. -/
theorem calls_eight {value : UInt8} (hr : r.pending = 0)
    (h : (r.call .byte).1 = .ok (some (.byte value))) :
    (r.calls (List.replicate 8 .bit)).1 = (bitsOf value).map (fun b => .ok (some (.bit b))) ∧
      (r.calls (List.replicate 8 .bit)).2.stream = (r.call .byte).2.stream := by
  obtain ⟨input, current, pending⟩ := r
  obtain rfl : pending = 0 := hr
  simp only [call, readByte] at h ⊢
  generalize hfetch : input.fetch = fetched at h ⊢
  obtain ⟨(f | (_ | byte)), rest⟩ := fetched
  · cases h
  · cases h
  · obtain rfl : byte = value := by simpa [Except.map] using h
    simp [List.replicate, calls, call, readBit, readByte, hfetch, Except.map, bitsOf, stream,
      lowBits]

/-- **On the boundary of a byte**, bits are those of the bytes that would be read, each from the
most significant one on, and behind them the readers stand for one stream. -/
theorem calls_bits {values : List UInt8} (hr : r.pending = 0)
    (h : (r.calls (List.replicate values.length .byte)).1 =
      values.map fun value => .ok (some (.byte value))) :
    (r.calls (List.replicate (8 * values.length) .bit)).1 =
        (values.flatMap bitsOf).map (fun b => .ok (some (.bit b))) ∧
      (r.calls (List.replicate (8 * values.length) .bit)).2.stream =
        (r.calls (List.replicate values.length .byte)).2.stream := by
  induction values generalizing r with
  | nil => exact ⟨rfl, rfl⟩
  | cons value values ih =>
    rw [List.length_cons, List.replicate_succ, calls, List.map_cons] at h
    obtain ⟨hbyte, hbytes⟩ := List.cons.inj h
    obtain ⟨hbits, hstream⟩ := calls_eight hr hbyte
    -- Both readers are behind the byte; only the current byte that is used up may differ.
    have hpending : (r.calls (List.replicate 8 .bit)).2.pending = 0 := by
      have hlength := congrArg (·.pending.length) hstream
      simp only [stream, length_lowBits] at hlength
      exact hlength
    obtain ⟨hsame, hbehind⟩ := calls_congr hstream (List.replicate values.length .byte)
    obtain ⟨hrest, hend⟩ := ih hpending (hsame.trans hbytes)
    have hcount : 8 * (value :: values).length = 8 + 8 * values.length := by
      rw [List.length_cons]
      omega
    rw [hcount, ← List.replicate_append_replicate, calls_append, hbits, hrest,
      List.flatMap_cons, List.map_append]
    refine ⟨rfl, ?_⟩
    rw [List.length_cons, List.replicate_succ, calls]
    exact hend.trans hbehind

/-! ## Any calls over any arrivals -/

/-- **A bit reader refines a stream of bits.** The answers to any calls over any arrivals, and what
the reader stands for behind them, are those of a run of the stream that has all arrivals unread,
and it has no other run. What the stream has unread is the input of the reader. Where no bit is
pending, bits are those of the bytes that would be read. -/
theorem calls_refine (input : Input) (cs : List Call) :
    ∃ replies r, calls { input } cs = (replies, r) ∧
      BitStream.Run ⟨[], input⟩ cs replies r.stream ∧
      (∀ replies' m, BitStream.Run ⟨[], input⟩ cs replies' m → replies' = replies ∧ m = r.stream) ∧
      r.stream.unread = r.input ∧ r.input <:+ input ∧
      (r.stream.pending = [] → ∀ values : List UInt8,
        (r.calls (List.replicate values.length .byte)).1 =
            values.map (fun value => .ok (some (.byte value))) →
          (r.calls (List.replicate (8 * values.length) .bit)).1 =
              (values.flatMap bitsOf).map (fun b => .ok (some (.bit b))) ∧
            (r.calls (List.replicate (8 * values.length) .bit)).2.stream =
              (r.calls (List.replicate values.length .byte)).2.stream) := by
  have hrun : BitStream.Run ⟨[], input⟩ cs (calls { input } cs).1 (calls { input } cs).2.stream :=
    (run_iff (r := { input })).mpr ⟨rfl, rfl⟩
  refine ⟨_, _, rfl, hrun, fun replies' m h => (run_iff (r := { input })).mp h, rfl,
    hrun.suffix, ?_⟩
  intro hnone values hbytes
  have hpending := congrArg List.length hnone
  rw [stream, length_lowBits] at hpending
  exact calls_bits hpending hbytes

/-- A byte is begun and dropped at a pause, and bits go on behind an interruption. A failure and the
end of the input come after that. -/
theorem calls_refine_paused :
    ∃ input replies r, input = [.interruption, .byte 0xa5, .pause, .interruption, .byte 0x0f,
        .failure ⟨"Other"⟩, .byte 0x81] ∧
      calls { input } [.bit, .bit, .bit, .byte] = (replies, r) ∧
      replies = [.ok (some (.bit true)), .ok (some (.bit false)), .ok (some (.bit true)),
        .ok none] ∧
      BitStream.Run ⟨[], input⟩ [.bit, .bit, .bit, .byte] replies r.stream ∧
      r.stream = ⟨[], [.interruption, .byte 0x0f, .failure ⟨"Other"⟩, .byte 0x81]⟩ ∧
      (r.calls (List.replicate 8 .bit)).1 =
        [false, false, false, false, true, true, true, true].map (.ok <| some <| .bit ·) ∧
      (r.calls (List.replicate 8 .bit)).2.stream = ⟨[], [.failure ⟨"Other"⟩, .byte 0x81]⟩ := by
  obtain ⟨replies, r, hcalls, hrun, -, -, -, hbits⟩ := calls_refine [.interruption, .byte 0xa5,
    .pause, .interruption, .byte 0x0f, .failure ⟨"Other"⟩, .byte 0x81] [.bit, .bit, .bit, .byte]
  obtain ⟨rfl, rfl⟩ := Prod.mk.inj hcalls
  obtain ⟨hanswers, hbehind⟩ := hbits rfl [0x0f] rfl
  exact ⟨_, _, _, rfl, rfl, rfl, hrun, rfl, hanswers.trans rfl, hbehind⟩

end BitReader

end RecordSchema
