import LinePainter.Proofs.Line.Cutting
import LinePainter.Proofs.Line.Wrapping

namespace LinePainter

/-! A session holds lines. Each command makes one more line out of those at hand, which
all stay there; an edit in place is a command whose old line is not used again. -/

abbrev Session := List Line

namespace Session

/-- A line at hand. What is not there counts as an empty line. -/
def line (session : Session) (position : Nat) : Line :=
  session[position]?.getD {}

inductive Command where
  | insert (target index fragment : Nat) (wrap : Option TextWrap)
  | append (target fragment : Nat)
  | appendText (target : Nat) (text : Text)
  | insertChars (target index count : Nat) (char : Char)
  | erase (target index length : Nat)
  | subline (target start : Nat) (length : Option Nat)
  | pick (target piece : Nat)

namespace Command

def outcome (session : Session) : Command → Except EditError Line
  | insert target index fragment wrap =>
      (session.line target).insert index (session.line fragment) wrap
  | append target fragment => .ok ((session.line target).append (session.line fragment))
  | appendText target text => .ok ((session.line target).appendText text)
  | insertChars target index count char => (session.line target).insertChars index count char
  | erase target index length => (session.line target).erase index length
  | subline target start length => (session.line target).subline start length
  | pick target piece => do
      let pieces ← (session.line target).splitLines
      return Session.line pieces piece

/-- The offsets of the command are in range and between characters. -/
def Allowed (session : Session) : Command → Prop
  | insert target index _ _ => (session.line target).text.IsBoundary index
  | append _ _ => True
  | appendText _ _ => True
  | insertChars target index _ _ => (session.line target).text.IsBoundary index
  | erase target index length =>
      (session.line target).text.IsBoundary index ∧
        (session.line target).text.IsBoundary (index + length)
  | subline target start length =>
      let stop := (length.map (start + ·)).getD (session.line target).length
      (session.line target).text.IsBoundary start ∧
        (session.line target).text.IsBoundary stop
  | pick target piece => piece ≤ (session.line target).text.count '\n'

instance (session : Session) : (command : Command) → Decidable (command.Allowed session)
  | insert target index _ _ =>
      inferInstanceAs (Decidable ((session.line target).text.IsBoundary index))
  | append _ _ => inferInstanceAs (Decidable True)
  | appendText _ _ => inferInstanceAs (Decidable True)
  | insertChars target index _ _ =>
      inferInstanceAs (Decidable ((session.line target).text.IsBoundary index))
  | erase _ _ _ => inferInstanceAs (Decidable (_ ∧ _))
  | subline _ _ _ => inferInstanceAs (Decidable (_ ∧ _))
  | pick target piece =>
      inferInstanceAs (Decidable (piece ≤ (session.line target).text.count '\n'))

end Command

def run (session : Session) : List Command → Except EditError Session
  | [] => .ok session
  | command :: rest => do
      let line ← command.outcome session
      run (session ++ [line]) rest

def AllAllowed (session : Session) : List Command → Prop
  | [] => True
  | command :: rest =>
      command.Allowed session ∧
        ∀ line, command.outcome session = .ok line → AllAllowed (session ++ [line]) rest

variable {session : Session}

theorem valid_line (hsession : ∀ line ∈ session, line.Valid) (position : Nat) :
    (session.line position).Valid := by
  unfold line
  cases hline : session[position]? with
  | none => exact fun attr hattr => nomatch hattr
  | some line => exact hsession line (List.mem_of_getElem? hline)

theorem exists_outcome (hsession : ∀ line ∈ session, line.Valid) {command : Command}
    (hallowed : command.Allowed session) :
    ∃ line, command.outcome session = .ok line ∧ line.Valid := by
  cases command with
  | insert target index fragment wrap =>
      exact Line.exists_insert (valid_line hsession target) (valid_line hsession fragment)
        hallowed wrap
  | append target fragment =>
      exact ⟨_, rfl,
        Line.valid_append (valid_line hsession target) (valid_line hsession fragment)⟩
  | appendText target text =>
      exact ⟨_, rfl, Line.valid_appendText (valid_line hsession target) text⟩
  | insertChars target index count char =>
      obtain ⟨before, after, htext, rfl⟩ := hallowed
      have hvalid := valid_line hsession target
      exact ⟨_, Line.insertChars_eq hvalid htext count char,
        Line.valid_pushedApart hvalid htext _⟩
  | erase target index length =>
      obtain ⟨before, removed, after, htext, rfl, hremoved⟩ :=
        Text.exists_between (Nat.le_add_right ..) hallowed.1 hallowed.2
      rw [Nat.add_sub_cancel_left] at hremoved
      subst hremoved
      exact ⟨_, Line.erase_eq htext, Line.valid_closedUp (valid_line hsession target) htext⟩
  | subline target start length =>
      obtain ⟨hstart, hstop⟩ := hallowed
      refine Line.exists_subline (valid_line hsession target) ?_ hstart hstop
      cases length with
      | none => exact hstart.le
      | some length => exact Nat.le_add_right ..
  | pick target piece =>
      have htarget := valid_line hsession target
      obtain ⟨pieces, hpieces, hcuts⟩ := Line.exists_splitLines htarget
      have hvalid := fun piece hpiece => (hcuts.valid_and_closed htarget rfl piece hpiece).1
      refine ⟨Session.line pieces piece, ?_, valid_line hvalid piece⟩
      simp only [Command.outcome, hpieces]
      rfl

theorem exists_run (hsession : ∀ line ∈ session, line.Valid) {commands : List Command}
    (hallowed : session.AllAllowed commands) :
    ∃ final, session.run commands = .ok final ∧ ∀ line ∈ final, line.Valid := by
  induction commands generalizing session with
  | nil => exact ⟨session, rfl, hsession⟩
  | cons command rest ih =>
      obtain ⟨hcommand, hrest⟩ := hallowed
      obtain ⟨line, hline, hvalid⟩ := exists_outcome hsession hcommand
      have hlonger : ∀ other ∈ session ++ [line], other.Valid := by
        intro other hother
        rcases List.mem_append.mp hother with hold | hnew
        · exact hsession other hold
        · rw [List.mem_singleton.mp hnew]
          exact hvalid
      obtain ⟨final, hfinal, hall⟩ := ih hlonger (hrest line hline)
      refine ⟨final, ?_, hall⟩
      rw [run, hline]
      exact hfinal

/-- A session whose lines are all valid stays that way: commands with offsets in range
and between characters never fail, and every line they make is valid. -/
theorem run_keeps_lines_valid (hsession : ∀ line ∈ session, line.fault? = none)
    {commands : List Command} (hallowed : session.AllAllowed commands) :
    ∃ final, session.run commands = .ok final ∧
      ∀ line ∈ final, line.fault? = none ∧
        ∀ attr ∈ line.attributes, attr.span.start ≤ line.length ∧
          ∀ stop ∈ attr.span.stop, attr.span.start ≤ stop ∧ stop ≤ line.length := by
  simp only [← Line.valid_iff_fault?_eq_none] at hsession ⊢
  obtain ⟨final, hfinal, hvalid⟩ := exists_run hsession hallowed
  refine ⟨final, hfinal, fun line hline => ⟨hvalid line hline, fun attr hattr => ?_⟩⟩
  have hfits := hvalid line hline attr hattr
  exact ⟨hfits.start_le, hfits.stop_within⟩

theorem run_keeps_lines_valid_wrapped_self :
    let session : Session := [⟨['a', 'é', ' ', 'b', 'c'],
      [⟨⟨1, some 3⟩, .foreground .red⟩, ⟨⟨6, none⟩, .background .blue⟩]⟩]
    let commands : List Command :=
      [.insertChars 0 3 2 'é', .erase 1 0 3, .pick 2 0, .insert 3 4 3 (some ⟨4, 2⟩)]
    ∃ final, session.run commands = .ok final ∧
      ∀ line ∈ final, line.fault? = none ∧
        ∀ attr ∈ line.attributes, attr.span.start ≤ line.length ∧
          ∀ stop ∈ attr.span.stop, attr.span.start ≤ stop ∧ stop ≤ line.length := by
  refine run_keeps_lines_valid (by decide) ⟨by decide, fun line hline => ?_⟩
  cases hline
  refine ⟨by decide, fun line hline => ?_⟩
  cases hline
  refine ⟨by decide, fun line hline => ?_⟩
  cases hline
  exact ⟨by decide, fun _ _ => trivial⟩

end Session

end LinePainter
