namespace LinePainter

/-! Half-open spans of byte offsets. A span without a stop reaches to the end of
whatever text it is used on. -/

/-- Offsets are counted in 64 bits. -/
def maxOffset : Nat := 0xffffffffffffffff

structure Span where
  start : Nat
  stop : Option Nat
  deriving DecidableEq

namespace Span

def full : Span := ⟨0, none⟩

def length? (span : Span) : Option Nat :=
  span.stop.map (· - span.start)

def isEmpty (span : Span) : Bool :=
  span.length? == some 0

def stopOr (span : Span) (length : Nat) : Nat :=
  span.stop.getD length

def resolve (span : Span) (length : Nat) : Span :=
  { span with stop := some (span.stopOr length) }

def Contains (span : Span) (offset : Nat) : Prop :=
  span.start ≤ offset ∧ ∀ stop ∈ span.stop, offset < stop

instance (span : Span) (offset : Nat) : Decidable (span.Contains offset) :=
  inferInstanceAs (Decidable (_ ∧ _))

/-- Whether the first span touches the second one's first offset or last offset, or
the second the first one's first offset. An empty second span touches a first span
that ends where it lies. -/
def Touches (span other : Span) : Prop :=
  span.Contains other.start ∨
    (∃ stop ∈ other.stop, 0 < stop ∧ span.Contains (stop - 1)) ∨
    other.Contains span.start

instance (span other : Span) : Decidable (span.Touches other) :=
  match hstop : other.stop with
  | none => decidable_of_iff (span.Contains other.start ∨ other.Contains span.start)
      (by simp [Touches, hstop])
  | some stop => decidable_of_iff
      (span.Contains other.start ∨ (0 < stop ∧ span.Contains (stop - 1)) ∨
        other.Contains span.start)
      (by simp [Touches, hstop])

def earlierStop : Option Nat → Option Nat → Option Nat
  | none, stop => stop
  | stop, none => stop
  | some left, some right => some (min left right)

def intersection (span other : Span) : Span where
  start := max span.start other.start
  stop := earlierStop span.stop other.stop

/-- An offset moved by a signed amount, kept between zero and `limit`. -/
def moveOffset (limit : Nat) (amount : Int) (offset : Nat) : Nat :=
  min (offset + amount).toNat limit

/-- Follows an insertion (or, for a negative amount, a removal) at `index`. A start
at `index` moves and so does a stop, so a span that ends there grows. -/
def shiftedWithin (limit : Nat) (span : Span) (index : Nat) (amount : Int) : Span :=
  let start :=
    if index ≤ span.start then moveOffset limit amount span.start else span.start
  { start
    stop := span.stop.map fun stop =>
      max (if index ≤ stop then moveOffset limit amount stop else stop) start }

def shifted (span : Span) (index : Nat) (amount : Int) : Span :=
  span.shiftedWithin maxOffset index amount

/-- Where an offset goes when `length` bytes at `index` are removed. -/
def squeezeOffset (index length offset : Nat) : Nat :=
  if offset ≤ index then offset
  else if offset < index + length then index
  else offset - length

def erased (span : Span) (index length : Nat) : Span where
  start := squeezeOffset index length span.start
  stop := span.stop.map (squeezeOffset index length)

def toText (span : Span) : String :=
  match span.stop with
  | some stop => s!"[{span.start}, {stop})"
  | none => s!"[{span.start}, ..)"

end Span

end LinePainter
