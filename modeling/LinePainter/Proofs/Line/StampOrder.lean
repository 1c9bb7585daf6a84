import LinePainter.Strip

namespace LinePainter

namespace Span

theorem stopAtMost_iff {left right : Option Nat} :
    stopAtMost left right = true ↔
      ∀ stop ∈ right, ∃ earlier ∈ left, earlier ≤ stop := by
  cases right with
  | none => simp [stopAtMost]
  | some stop =>
      cases left with
      | none => simp [stopAtMost]
      | some earlier => simp [stopAtMost]

theorem precedes_iff {left right : Span} :
    left.precedes right = true ↔
      left.start < right.start ∨
        (left.start = right.start ∧ stopAtMost left.stop right.stop = true) := by
  simp [precedes]

theorem precedes_trans {first second third : Span}
    (hfirst : first.precedes second = true) (hsecond : second.precedes third = true) :
    first.precedes third = true := by
  rw [precedes_iff] at *
  rcases hfirst with hlt | ⟨heq, hstops⟩
  · rcases hsecond with hlt' | ⟨heq', -⟩
    · exact .inl (Nat.lt_trans hlt hlt')
    · exact .inl (heq' ▸ hlt)
  · rcases hsecond with hlt' | ⟨heq', hstops'⟩
    · exact .inl (heq ▸ hlt')
    · refine .inr ⟨heq.trans heq', ?_⟩
      rw [stopAtMost_iff] at *
      intro stop hstop
      obtain ⟨middle, hmiddle, hle⟩ := hstops' stop hstop
      obtain ⟨earlier, hearlier, hle'⟩ := hstops middle hmiddle
      exact ⟨earlier, hearlier, Nat.le_trans hle' hle⟩

theorem precedes_total (left right : Span) :
    left.precedes right = true ∨ right.precedes left = true := by
  rw [precedes_iff, precedes_iff]
  rcases Nat.lt_trichotomy left.start right.start with hlt | heq | hgt
  · exact .inl (.inl hlt)
  · have hstops : stopAtMost left.stop right.stop = true ∨
        stopAtMost right.stop left.stop = true := by
      cases left.stop with
      | none => exact .inr (by cases right.stop <;> rfl)
      | some stop =>
          cases right.stop with
          | none => exact .inl rfl
          | some stop' => simpa [stopAtMost] using Nat.le_total stop stop'
    rcases hstops with hstops | hstops
    · exact .inl (.inr ⟨heq, hstops⟩)
    · exact .inr (.inr ⟨heq.symm, hstops⟩)
  · exact .inr (.inl hgt)

theorem eq_of_precedes {left right : Span} (hleft : left.precedes right = true)
    (hright : right.precedes left = true) : left = right := by
  rw [precedes_iff] at hleft hright
  obtain ⟨start, stop⟩ := left
  obtain ⟨start', stop'⟩ := right
  dsimp only at hleft hright
  obtain rfl : start = start' := by omega
  have hstop := (hleft.resolve_left (Nat.lt_irrefl _)).2
  have hstop' := (hright.resolve_left (Nat.lt_irrefl _)).2
  congr 1
  cases stop with
  | none =>
      cases stop' with
      | none => rfl
      | some stop' => cases hstop
  | some stop =>
      cases stop' with
      | none => cases hstop'
      | some stop' =>
          exact congrArg some (Nat.le_antisymm (of_decide_eq_true hstop) (of_decide_eq_true hstop'))

end Span

/-- Attributes sorted by start and then by stop, open spans last. Those with equal
spans are in the order in which they were. -/
structure StablySorted (unsorted sorted : List Attribute) : Prop where
  perm : sorted.Perm unsorted
  ordered : sorted.Pairwise fun left right => left.span.precedes right.span = true
  stable : ∀ span, sorted.filter (·.span = span) = unsorted.filter (·.span = span)

/-- The same attributes in another order. Those with equal spans are in the order in which
they were. -/
structure Reordered (attributes other : List Attribute) : Prop where
  perm : other.Perm attributes
  stable : ∀ span, other.filter (·.span = span) = attributes.filter (·.span = span)

theorem mem_iff_of_filter_span_eq {left right : List Attribute}
    (hsame : ∀ span, left.filter (·.span = span) = right.filter (·.span = span))
    (attr : Attribute) : attr ∈ left ↔ attr ∈ right := by
  have hfilter : attr ∈ left.filter (·.span = attr.span) ↔
      attr ∈ right.filter (·.span = attr.span) := by rw [hsame]
  simpa using hfilter

/-- Attributes that are sorted are known by those of each span. -/
theorem eq_of_filter_span_eq {left right : List Attribute}
    (hleft : left.Pairwise fun attr other => attr.span.precedes other.span = true)
    (hright : right.Pairwise fun attr other => attr.span.precedes other.span = true)
    (hsame : ∀ span, left.filter (·.span = span) = right.filter (·.span = span)) :
    left = right := by
  induction left generalizing right with
  | nil =>
      have hnone (attr : Attribute) : attr ∉ right :=
        fun hattr => List.not_mem_nil ((mem_iff_of_filter_span_eq hsame attr).mpr hattr)
      exact (List.eq_nil_iff_forall_not_mem.mpr hnone).symm
  | cons first rest ih =>
      have hfirst := (mem_iff_of_filter_span_eq hsame first).mp List.mem_cons_self
      cases right with
      | nil => exact absurd hfirst List.not_mem_nil
      | cons first' rest' =>
          have hfirst' := (mem_iff_of_filter_span_eq hsame first').mpr List.mem_cons_self
          obtain ⟨hbefore, hrest⟩ := List.pairwise_cons.mp hleft
          obtain ⟨hbefore', hrest'⟩ := List.pairwise_cons.mp hright
          -- Each head is among the attributes that the other one precedes.
          have hspan : first.span = first'.span := by
            rcases List.mem_cons.mp hfirst with heq | hlater
            · rw [heq]
            rcases List.mem_cons.mp hfirst' with heq | hlater'
            · rw [heq]
            · exact Span.eq_of_precedes (hbefore first' hlater') (hbefore' first hlater)
          have hheads := hsame first'.span
          simp only [List.filter_cons, hspan, decide_true, if_true, List.cons.injEq] at hheads
          obtain ⟨rfl, -⟩ := hheads
          refine congrArg (List.cons first) (ih hrest hrest' fun span => ?_)
          have hall := hsame span
          rw [List.filter_cons, List.filter_cons] at hall
          split at hall
          · exact List.tail_eq_of_cons_eq hall
          · exact hall

namespace Line

theorem stablySorted_stampOrder (line : Line) :
    StablySorted line.attributes line.stampOrder := by
  have htrans (first second third : Attribute) :
      first.span.precedes second.span = true → second.span.precedes third.span = true →
        first.span.precedes third.span = true :=
    Span.precedes_trans
  have htotal (left right : Attribute) :
      (left.span.precedes right.span || right.span.precedes left.span) = true := by
    rw [Bool.or_eq_true]
    exact Span.precedes_total left.span right.span
  constructor
  case perm => exact List.mergeSort_perm ..
  case ordered => exact List.pairwise_mergeSort htrans htotal line.attributes
  case stable =>
      intro span
      have hequal : (line.attributes.filter (·.span = span)).Pairwise
          fun left right => left.span.precedes right.span = true := by
        apply List.pairwise_of_forall_mem_list
        intro left hleft right hright
        simp only [List.mem_filter, decide_eq_true_eq] at hleft hright
        rw [hleft.2, hright.2]
        exact or_self_iff.mp (Span.precedes_total span span)
      have hsublist : (line.attributes.filter (·.span = span)).Sublist line.stampOrder :=
        List.sublist_mergeSort htrans htotal hequal List.filter_sublist
      have hfilter := hsublist.filter (·.span = span)
      rw [List.filter_filter] at hfilter
      simp only [Bool.and_self] at hfilter
      exact (hfilter.eq_of_length
        ((List.mergeSort_perm ..).filter _).length_eq.symm).symm

theorem stampOrder_singleton (text : Text) (attr : Attribute) :
    stampOrder ⟨text, [attr]⟩ = [attr] :=
  List.mergeSort_singleton _

theorem mem_stampOrder {line : Line} {attr : Attribute} :
    attr ∈ line.stampOrder ↔ attr ∈ line.attributes :=
  line.stablySorted_stampOrder.perm.mem_iff

theorem stampOrder_eq_of_reordered {line other : Line}
    (hreordered : Reordered line.attributes other.attributes) :
    other.stampOrder = line.stampOrder := by
  have hsorted := line.stablySorted_stampOrder
  have hsorted' := other.stablySorted_stampOrder
  refine eq_of_filter_span_eq hsorted'.ordered hsorted.ordered fun span => ?_
  calc other.stampOrder.filter (·.span = span)
      _ = other.attributes.filter (·.span = span) := hsorted'.stable span
      _ = line.attributes.filter (·.span = span) := hreordered.stable span
      _ = line.stampOrder.filter (·.span = span) := (hsorted.stable span).symm

end Line

end LinePainter
