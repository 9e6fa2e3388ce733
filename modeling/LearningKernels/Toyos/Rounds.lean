import LearningKernels.Toyos.Arguments

/-!
# The rounds of the main loop

Whatever the format is, also one that ends inside a directive, the rounds of the main loop
of `vsprintf` start at places of the format up to its terminating zero, each one behind the
round before it, and no round reads behind the zero. On matching arguments the loop ends at
the zero (`Toyos.vsprintf_rounds`).
-/

namespace Toyos

open Machine

/-- The index of `*fmt` in the terminated format `fmt` when the round starts. -/
def Round.position (fmt : List Byte) (round : Round) : Nat := fmt.length + 1 - round.fmt.length

/-- The next round of the main loop. -/
def NextRound (stray : Stray) (round next : Round) : Prop :=
  vsprintfRound stray round = .ok (some next)

/-- The rounds that a call goes through. -/
def Reached (stray : Stray) (fmt : List Byte) (args : List Arg) (round : Round) : Prop :=
  Relation.ReflTransGen (NextRound stray) ⟨fmt ++ [0], args, ⟨[], [], []⟩⟩ round

/-- The round starts at a place of the format, at the latest at the zero. -/
def Inside (fmt : List Byte) (round : Round) : Prop :=
  ∃ rest, rest <:+ fmt ∧ round.fmt = rest ++ [0]

section Rounds

variable {stray : Stray} {fmt : List Byte} {round next : Round}

/-- The place of the round by its index. -/
theorem Inside.position (inside : Inside fmt round) :
    round.position fmt ≤ fmt.length ∧ round.fmt = (fmt ++ [0]).drop (round.position fmt) := by
  obtain ⟨rest, ⟨front, rfl⟩, same⟩ := inside
  have index : round.position (front ++ rest) = front.length := by
    rw [Round.position, same]
    simp only [List.length_append, List.length_singleton]
    omega
  rw [index, same, List.append_assoc, List.drop_left, List.length_append]
  exact ⟨Nat.le_add_right _ _, rfl⟩

/-- A round goes on behind its place, ends at the zero or fails for its arguments only. -/
theorem vsprintfRound_cases (nulFree : 0 ∉ fmt) (inside : Inside fmt round) :
    vsprintfRound stray round = .ok none ∨
    (∃ next, vsprintfRound stray round = .ok (some next) ∧ Inside fmt next ∧
      next.fmt.length < round.fmt.length) ∨
    ∃ reason, reason.OfArgs ∧ vsprintfRound stray round = .error reason := by
  obtain ⟨rest, part, same⟩ := inside
  obtain ⟨_, args, done⟩ := round
  subst same
  cases rest with
  | nil => exact .inl rfl
  | cons char rest =>
      have visible : char ≠ 0 := fun zero => nulFree (part.subset (zero ▸ List.mem_cons_self))
      have behind : rest <:+ fmt := (List.suffix_cons char rest).trans part
      have restFree : 0 ∉ rest := fun member => nulFree (behind.subset member)
      refine .inr ?_
      by_cases literal : char = chr '%'
      · subst literal
        have shorter := (scanDirective_suffix rest).length_le
        rw [vsprintfRound_directive args stray done restFree]
        cases ran : (scanDirective rest).1.print stray args done.text.length with
        | error reason =>
            have starved := (Item.print_consumes (.directive (scanDirective rest).1)
              done.text.length).starved ran
            exact .inr ⟨reason, starved, rfl⟩
        | ok found =>
            refine .inl ⟨_, rfl, ⟨_, (scanDirective_suffix rest).trans behind, rfl⟩, ?_⟩
            simp only [List.length_append, List.length_cons]
            omega
      · refine .inl ⟨_, vsprintfRound_literal args stray done visible literal,
          ⟨rest, behind, rfl⟩, ?_⟩
        simp only [List.length_append, List.length_cons]
        omega

/-- The next round is inside the format as well, at a later place. -/
theorem Inside.step (nulFree : 0 ∉ fmt) (inside : Inside fmt round)
    (moved : NextRound stray round next) :
    Inside fmt next ∧ round.position fmt < next.position fmt := by
  rcases @vsprintfRound_cases stray fmt round nulFree inside with
    ended | ⟨other, ran, place, shorter⟩ | ⟨reason, _, failed⟩
  · cases ended.symm.trans moved
  · cases ran.symm.trans moved
    refine ⟨place, ?_⟩
    obtain ⟨rest, part, same⟩ := inside
    have bound := part.length_le
    have length := congrArg List.length same
    rw [List.length_append, List.length_singleton] at length
    unfold Round.position
    omega
  · cases failed.symm.trans moved

theorem Inside.noOverrun (nulFree : 0 ∉ fmt) (inside : Inside fmt round) :
    vsprintfRound stray round ≠ .error .overrun := by
  intro overrun
  rcases @vsprintfRound_cases stray fmt round nulFree inside with
    ended | ⟨other, ran, _, _⟩ | ⟨reason, starved, failed⟩
  · cases ended.symm.trans overrun
  · cases ran.symm.trans overrun
  · cases failed.symm.trans overrun
    exact starved.elsewhere.1 rfl

/-- Every round that a call goes through is inside the format. -/
theorem Reached.inside (nulFree : 0 ∉ fmt) {args : List Arg}
    (reached : Reached stray fmt args round) : Inside fmt round := by
  induction reached with
  | refl => exact ⟨fmt, List.suffix_rfl, rfl⟩
  | tail _ moved ih => exact (ih.step nulFree moved).1

end Rounds

/-- **The scan.** For every format and every argument list, the rounds of the main loop are
inside the format, each one is at a later place than the one before it, and none reads behind
the terminating zero. On matching arguments the loop ends. -/
theorem vsprintf_rounds (stray : Stray) {fmt : List Byte} (nulFree : 0 ∉ fmt) (args : List Arg) :
    (Matching fmt args → ∃ formatted, vsprintf stray fmt args = .ok formatted) ∧
    vsprintf stray fmt args ≠ .error .overrun ∧ vsprintf stray fmt args ≠ .error .unfinished ∧
    ∀ round, Reached stray fmt args round →
      round.position fmt ≤ fmt.length ∧
      round.fmt = (fmt ++ [0]).drop (round.position fmt) ∧
      vsprintfRound stray round ≠ .error .overrun ∧
      ∀ next, NextRound stray round next → round.position fmt < next.position fmt := by
  refine ⟨(vsprintf_returns_iff stray nulFree args).mpr, ?_, ?_, ?_⟩
  · exact fun failed => (vsprintf_faults nulFree failed).elsewhere.1 rfl
  · exact fun failed => (vsprintf_faults nulFree failed).elsewhere.2 rfl
  · intro round reached
    have inside := reached.inside nulFree
    obtain ⟨index, place⟩ := inside.position
    refine ⟨index, place, inside.noOverrun nulFree, ?_⟩
    intro next moved
    exact (inside.step nulFree moved).2

/-- The format `%-0` ends behind its flags. -/
theorem vsprintf_rounds_flags :
    ∃ formatted, vsprintf (fun _ _ => 0) [chr '%', chr '-', chr '0'] [] = .ok formatted :=
  (vsprintf_rounds _ (by decide) []).1 (by decide +kernel)

end Toyos
