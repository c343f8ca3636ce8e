/-!
# Spans

A span is a range of bytes of the source text. Tokens, tree nodes and diagnostics all carry one, and
every offset in the library counts bytes of the UTF-8 form, never characters. -/
namespace Shading

/-- The bytes from `start` up to, and not including, `stop`. -/
structure Span where
  start : Nat
  stop : Nat
deriving DecidableEq, Repr, Inhabited

namespace Span

def point (offset : Nat) : Span := ⟨offset, offset⟩

def cover (a b : Span) : Span := ⟨min a.start b.start, max a.stop b.stop⟩

def size (s : Span) : Nat := s.stop - s.start

def isEmpty (s : Span) : Bool := s.start == s.stop

def contains (outer inner : Span) : Bool := outer.start ≤ inner.start && inner.stop ≤ outer.stop

def after (s : Span) : Span := point s.stop

/-- Both bounds, as diagnostics show them: `3..7`. -/
def text (s : Span) : String := s!"{s.start}..{s.stop}"

/-- Both bounds, as log lines show them: `3-7`. -/
def dashed (s : Span) : String := s!"{s.start}-{s.stop}"

@[simp] theorem point_start (n : Nat) : (point n).start = n := rfl
@[simp] theorem point_stop (n : Nat) : (point n).stop = n := rfl
@[simp] theorem cover_start (a b : Span) : (cover a b).start = min a.start b.start := rfl
@[simp] theorem cover_stop (a b : Span) : (cover a b).stop = max a.stop b.stop := rfl

theorem contains_iff {a b : Span} : a.contains b = true ↔ a.start ≤ b.start ∧ b.stop ≤ a.stop := by
  simp [contains]

theorem cover_contains_left (a b : Span) : (cover a b).contains a = true :=
  contains_iff.2 ⟨Nat.min_le_left .., Nat.le_max_left ..⟩

theorem cover_contains_right (a b : Span) : (cover a b).contains b = true :=
  contains_iff.2 ⟨Nat.min_le_right .., Nat.le_max_right ..⟩

end Span
end Shading
