import SwiftAccess.Proofs.LevelReadBack

/-!
# The member level is the level of the pushed member

A property declared without a body (`let a = 1`) opens no scope: its frame stays on the stack only
until the next declaration replaces it (`Scope.push`). Every move of the stack keeps such a frame
on top (`Scope.BareOnTop`, with one lemma per move), so it holds after any token lines folded into
the empty stack.

With the invariant, `Scope.memberLevel` skips at most the top frame, which is exactly the frame a
push replaces (`Scope.push_frames_of_bareOnTop`). So the level that a line stating no modifier
gets from the stack it starts in is the level the stack gives the declaration once the line's
keyword has pushed it, wherever no protocol stops the push (`member_level_reads_pushed_level`).
-/

namespace SwiftAccess

theorem Keyword.access?_of_structural {k : Keyword} (hk : k.structural = true) :
    k.access? = none := by
  revert hk
  cases k <;> decide

namespace Scope

/-- On a stack whose bare properties lie on top, a push puts the new frame right over the frames
that `memberLevel` reads. -/
theorem push_frames_of_bareOnTop {s : Scope} (h : BareOnTop s) (f : Frame) :
    (s.push f).frames = f :: s.frames.dropWhile (·.isBareProperty) := by
  unfold push
  match hs : s.frames with
  | [] => rfl
  | g :: rest =>
    have hdrop : rest.dropWhile (·.isBareProperty) = rest := by
      cases rest with
      | nil => rfl
      | cons x xs => simp [h x (by simp [hs])]
    by_cases hg : g.isBareProperty = true
    · simp [hg, hdrop]
    · simp [hg]

/-- A line of one structural keyword pushes its declaration, with no access, unless a protocol
records no declarations. -/
theorem addLine_keyword {k : Keyword} (hk : k.structural = true) {s : Scope}
    (hp : s.declares .protocol = false) :
    s.addLine [.keyword k] =
      s.push { access := none, keyword := some k, braced := false,
               conformance := k == .extension && declaresConformance [] } := by
  simp [addLine, addTokens, Keyword.access?_of_structural hk, hk, hp]

/-- A frame that states no access inherits the level of the frames below it. -/
theorem inheritedLevel_cons_none {f : Frame} (hf : f.access = none) (fs : List Frame) :
    inheritedLevel (f :: fs) = inheritedLevel fs := by
  simp [inheritedLevel, hf]

theorem bareOnTop_foldl_addLine (tss : List (List Token)) : BareOnTop (tss.foldl addLine {}) := by
  simpa [scopeAfter] using bareOnTop_scopeAfter tss tss.length

end Scope

/-- For every token lines folded into the empty scope stack, with any tokens: no frame below the
top of the stack is a property without a body. So, when no protocol frame stops declarations, the
level a new member gets when its line states none is the level the stack gives it once a line of
one structural keyword has pushed its declaration. -/
theorem member_level_reads_pushed_level (tss : List (List Token)) :
    let s := tss.foldl Scope.addLine {}
    (∀ f ∈ s.frames.tail, f.isBareProperty = false) ∧
      ∀ k : Keyword, k.structural = true → s.declares .protocol = false →
        s.memberLevel = (s.addLine [.keyword k]).currentLevel := by
  intro s
  have hbare : Scope.BareOnTop s := Scope.bareOnTop_foldl_addLine tss
  refine ⟨hbare, fun k hk hp => ?_⟩
  -- the pushed frame states no access, so it passes on what the frames below it pass on
  rw [Scope.addLine_keyword hk hp, Scope.currentLevel, Scope.push_frames_of_bareOnTop hbare]
  simp only [Option.getD_none]
  rw [Scope.inheritedLevel_cons_none rfl]
  rfl

/-- A `let` without a body inside a private structure: a `var` on the next line replaces it, and
reads the structure's level, as the member level says. -/
theorem bare_let_member_level :
    let tss : List (List Token) :=
      [[.keyword .«private», .keyword .struct, .punct .openBrace], [.keyword .«let»]]
    let s := tss.foldl Scope.addLine {}
    s.declares .protocol = false ∧ s.memberLevel = .«private» ∧
      s.memberLevel = (s.addLine [.keyword .var]).currentLevel :=
  ⟨by decide, by decide, (member_level_reads_pushed_level _).2 .var rfl (by decide)⟩

end SwiftAccess
