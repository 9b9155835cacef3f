/-
Byte ranges of a text. A span built from two ends is never negative: an end before the start gives
the empty span at the start, and the union of two spans is their hull.
-/

namespace Interconnect

/-- The bytes from `start` up to, but not including, `stop`. -/
structure Span where
  start : Nat := 0
  stop : Nat := 0
  deriving DecidableEq, Repr, Inhabited

namespace Span

/-- The span between two ends; empty at `a` when `b` lies before it. -/
def between (a b : Nat) : Span := ⟨a, max a b⟩

/-- The span with its ends in order: empty where the end lies before the start. -/
def inOrder (s : Span) : Span := between s.start s.stop

def length (s : Span) : Nat := s.stop - s.start

def isEmpty (s : Span) : Bool := s.start == s.stop

/-- The hull of two spans. -/
def union (s t : Span) : Span := ⟨min s.start t.start, max s.stop t.stop⟩

/-- Both ends, as `3..7`. -/
def text (s : Span) : String := toString s.start ++ ".." ++ toString s.stop

/-! ## Order of the ends -/

/-- A span whose ends are in order. -/
def Ordered (s : Span) : Prop := s.start ≤ s.stop

theorem between_ordered (a b : Nat) : (between a b).Ordered := Nat.le_max_left a b

theorem inOrder_ordered (s : Span) : s.inOrder.Ordered := between_ordered s.start s.stop

/-- The length leads from one end to the other. -/
theorem Ordered.start_add_length {s : Span} (h : s.Ordered) : s.start + s.length = s.stop :=
  Nat.add_sub_cancel' h

theorem union_ordered {s t : Span} (hs : s.Ordered) : (s.union t).Ordered :=
  Nat.le_trans (Nat.min_le_left _ _) (Nat.le_trans hs (Nat.le_max_left _ _))

/-! ## Places in a text -/

/-- A span both of whose ends lie in a text of that many bytes. -/
def Within (size : Nat) (s : Span) : Prop := s.start ≤ size ∧ s.stop ≤ size

/-- The span of nothing in particular, at the start. -/
theorem default_within (size : Nat) : Within size {} := ⟨Nat.zero_le _, Nat.zero_le _⟩

theorem inOrder_within {size : Nat} {s : Span} (h : s.Within size) : s.inOrder.Within size :=
  ⟨h.1, Nat.max_le.2 h⟩

theorem union_within {size : Nat} {s t : Span} (hs : s.Within size) (ht : t.Within size) :
    (s.union t).Within size :=
  ⟨Nat.le_trans (Nat.min_le_left _ _) hs.1, Nat.max_le.2 ⟨hs.2, ht.2⟩⟩

/-- All bytes of the other span lie in this one. -/
def Covers (s t : Span) : Prop := s.start ≤ t.start ∧ t.stop ≤ s.stop

theorem covers_union_left (s t : Span) : (s.union t).Covers s :=
  ⟨Nat.min_le_left _ _, Nat.le_max_left _ _⟩

theorem covers_union_right (s t : Span) : (s.union t).Covers t :=
  ⟨Nat.min_le_right _ _, Nat.le_max_right _ _⟩

end Span

end Interconnect
