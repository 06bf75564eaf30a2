import SwiftAccess.Scope

/-!
# Runs of the scope stack

`Scope.addTokens` reads a token with its context: the access written earlier on the line, the
token before it and the token after it. That context only decides *which* of a few moves a token
makes, so this module describes the moves themselves: `Scope.Steps s ts s'` says that the tokens
`ts` can take the stack `s` to `s'`, where `{` opens a body (`Scope.openBrace`), `}` closes one
(`Scope.closeBrace`), a structural keyword may push a declaration that has no body yet, and every
other token leaves the stack alone. Every run of `addTokens` is such a run (`Scope.addTokens_steps`),
runs compose (`Scope.steps_append`), and so the stack a whole file leaves is a run over the
file's tokens (`Scope.steps_foldl_addLine`).

The main fact is `Scope.Steps.keeps`: an open frame `F` and every frame below it stay on the stack
for as long as the tokens after it never close more braces than they open. Pushing replaces only a
property without a body, which `F` is not, and `}` removes frames only down to the innermost open
one, which lies above `F` while the count of open frames above it is positive.
-/

namespace SwiftAccess

namespace Scope

/-- The moves a stream of tokens can make on the scope stack, one token at a time. -/
inductive Steps : Scope → List Token → Scope → Prop
  | nil (s : Scope) : Steps s [] s
  | openBrace {s s' : Scope} {ts : List Token} (access : Option Access) :
      Steps (s.openBrace access) ts s' → Steps s (.punct .openBrace :: ts) s'
  | closeBrace {s s' : Scope} {ts : List Token} :
      Steps s.closeBrace ts s' → Steps s (.punct .closeBrace :: ts) s'
  | push {s s' : Scope} {ts : List Token} {k : Keyword} (f : Frame) :
      k.structural = true → f.keyword = some k → f.braced = false →
      Steps (s.push f) ts s' → Steps s (.keyword k :: ts) s'
  | skip {s s' : Scope} {ts : List Token} (t : Token) :
      t ≠ .punct .openBrace → t ≠ .punct .closeBrace → Steps s ts s' → Steps s (t :: ts) s'

/-- Folding tokens into the stack is a run of its moves, whatever the context. -/
theorem addTokens_steps :
    ∀ (ts : List Token) (s : Scope) (la : Option Access) (prev : Option Token),
      Steps s ts (s.addTokens la prev ts)
  | [], s, _, _ => .nil s
  | t :: ts, s, la, prev => by
    unfold addTokens
    split
    · next k =>
      split
      · exact .skip _ (by simp) (by simp) (addTokens_steps ts s _ _)
      · split
        · next hk =>
          split
          · exact .skip _ (by simp) (by simp) (addTokens_steps ts s _ _)
          · split
            · exact .skip _ (by simp) (by simp) (addTokens_steps ts s _ _)
            · simp only [Bool.and_eq_true, Bool.not_eq_eq_eq_not, Bool.not_true] at hk
              exact .push _ hk.1 rfl rfl (addTokens_steps ts _ _ _)
        · exact .skip _ (by simp) (by simp) (addTokens_steps ts s _ _)
    · exact .openBrace _ (addTokens_steps ts _ _ _)
    · exact .closeBrace (addTokens_steps ts _ _ _)
    · exact .skip _ (by rintro rfl; simp_all) (by rintro rfl; simp_all) (addTokens_steps ts s _ _)

/-- A run over two streams is a run over the first, then over the second. -/
theorem steps_append {s s'' : Scope} :
    ∀ {xs ys : List Token}, Steps s (xs ++ ys) s'' ↔ ∃ s', Steps s xs s' ∧ Steps s' ys s''
  | [], ys => ⟨fun h => ⟨s, .nil s, h⟩, fun ⟨_, h1, h2⟩ => by cases h1; exact h2⟩
  | x :: xs, ys => by
    constructor
    · intro h
      cases h with
      | openBrace a h =>
        obtain ⟨s', h1, h2⟩ := steps_append.1 h
        exact ⟨s', .openBrace a h1, h2⟩
      | closeBrace h =>
        obtain ⟨s', h1, h2⟩ := steps_append.1 h
        exact ⟨s', .closeBrace h1, h2⟩
      | push f hk hf hb h =>
        obtain ⟨s', h1, h2⟩ := steps_append.1 h
        exact ⟨s', .push f hk hf hb h1, h2⟩
      | skip _ ho hc h =>
        obtain ⟨s', h1, h2⟩ := steps_append.1 h
        exact ⟨s', .skip _ ho hc h1, h2⟩
    · rintro ⟨s', h1, h2⟩
      cases h1 with
      | openBrace a h1 => exact .openBrace a (steps_append.2 ⟨s', h1, h2⟩)
      | closeBrace h1 => exact .closeBrace (steps_append.2 ⟨s', h1, h2⟩)
      | push f hk hf hb h1 => exact .push f hk hf hb (steps_append.2 ⟨s', h1, h2⟩)
      | skip _ ho hc h1 => exact .skip _ ho hc (steps_append.2 ⟨s', h1, h2⟩)

/-- The stack after whole lines is a run over their tokens, read as one stream. -/
theorem steps_foldl_addLine :
    ∀ (tss : List (List Token)) (s : Scope), Steps s tss.flatten (tss.foldl addLine s)
  | [], s => .nil s
  | ts :: tss, s => by
    rw [List.flatten_cons, steps_append]
    exact ⟨s.addLine ts, addTokens_steps ts s none none, steps_foldl_addLine tss _⟩

/-- Tokens that are neither braces nor structural keywords leave the stack as it is. -/
theorem Steps.eq_of_inert {s s' : Scope} {ts : List Token} (h : Steps s ts s')
    (hts : ∀ t ∈ ts, t ≠ .punct .openBrace ∧ t ≠ .punct .closeBrace ∧
      ∀ k, t = .keyword k → k.structural = false) : s' = s := by
  induction h with
  | nil => rfl
  | openBrace _ _ _ => exact absurd rfl (hts _ (List.mem_cons_self ..)).1
  | closeBrace _ _ => exact absurd rfl (hts _ (List.mem_cons_self ..)).2.1
  | push _ hk _ _ _ _ =>
    have := (hts _ (List.mem_cons_self ..)).2.2 _ rfl
    simp [hk] at this
  | skip _ _ _ _ ih => exact ih fun t ht => hts t (List.mem_cons_of_mem _ ht)

/-! ## An open frame stays below the braces opened after it -/

/-- `F`, with the frames `below` it, is on the stack under frames of which `count` are open. -/
def Keeps (F : Frame) (below : List Frame) (count : Nat) (s : Scope) : Prop :=
  ∃ above : List Frame, s.frames = above ++ F :: below ∧ above.countP (·.braced) = count

section
variable {F f : Frame} {below : List Frame} {c : Nat} {s : Scope}

theorem keeps_push (hF : F.braced = true) (hf : f.braced = false) (h : Keeps F below c s) :
    Keeps F below c (s.push f) := by
  obtain ⟨above, hs, hc⟩ := h
  unfold push
  rw [hs]
  cases above with
  | nil =>
    have : F.isBareProperty = false := by simp [Frame.isBareProperty, hF]
    simp only [List.nil_append, this]
    simp only [List.countP_nil] at hc
    exact ⟨[f], rfl, by simp [hf, hc]⟩
  | cons g above =>
    simp only [List.cons_append]
    split
    · next hg =>
      have hgb : g.braced = false := by
        simp only [Frame.isBareProperty, Bool.and_eq_true, Bool.not_eq_eq_eq_not,
          Bool.not_true] at hg
        exact hg.2
      exact ⟨f :: above, rfl, by simpa [hf, hgb] using hc⟩
    · exact ⟨f :: g :: above, rfl, by simpa [hf] using hc⟩

theorem keeps_openBrace (hF : F.braced = true) (a : Option Access) (h : Keeps F below c s) :
    Keeps F below (c + 1) (s.openBrace a) := by
  obtain ⟨above, hs, hc⟩ := h
  unfold openBrace
  rw [hs]
  cases above with
  | nil =>
    simp only [List.nil_append, hF, if_true]
    simp only [List.countP_nil] at hc
    exact ⟨[_], rfl, by simp [hc]⟩
  | cons g above =>
    simp only [List.cons_append]
    split
    · next hg => exact ⟨_ :: g :: above, rfl, by simp_all⟩
    · next hg => exact ⟨{ g with braced := true } :: above, rfl, by simp_all⟩

/-- Closing frames above at least one open frame removes them down to the innermost open one,
and leaves what lies below untouched. -/
theorem closeFrames_append :
    ∀ {above : List Frame} (xs : List Frame), above.countP (·.braced) ≠ 0 →
      closeFrames (above ++ xs) = closeFrames above ++ xs ∧
        (closeFrames above).countP (·.braced) + 1 = above.countP (·.braced)
  | [], _, h => absurd rfl h
  | g :: above, xs, h => by
    by_cases hg : g.braced = true
    · simp [closeFrames, hg]
    · have hg' : g.braced = false := by simpa using hg
      have h' : above.countP (·.braced) ≠ 0 := by simpa [hg'] using h
      simp only [List.cons_append, closeFrames, hg', Bool.false_eq_true, if_false]
      exact ⟨(closeFrames_append xs h').1, by simpa [hg'] using (closeFrames_append xs h').2⟩

theorem keeps_closeBrace (h : Keeps F below (c + 1) s) : Keeps F below c s.closeBrace := by
  obtain ⟨above, hs, hc⟩ := h
  have hne : above.countP (·.braced) ≠ 0 := by omega
  obtain ⟨happ, hcount⟩ := closeFrames_append (F :: below) hne
  exact ⟨closeFrames above, by simp [closeBrace, hs, happ], by omega⟩

/-- The open frame `F` and the frames below it survive every run whose tokens, counted from the
start, never close more braces than they open beyond the `c` open frames above `F`. -/
theorem Steps.keeps {ts : List Token} {s' : Scope} (h : Steps s ts s') (hF : F.braced = true)
    (hk : Keeps F below c s)
    (hbal : ∀ n, (ts.take n).count (.punct .closeBrace) ≤
      (ts.take n).count (.punct .openBrace) + c) :
    ∃ c', Keeps F below c' s' := by
  induction h generalizing c with
  | nil => exact ⟨c, hk⟩
  | openBrace a _ ih =>
    refine ih (keeps_openBrace hF a hk) fun n => ?_
    have := hbal (n + 1)
    simp only [List.take_succ_cons, List.count_cons_self, List.count_cons] at this
    simp at this
    omega
  | closeBrace _ ih =>
    have h1 := hbal 1
    simp at h1
    obtain ⟨c, rfl⟩ : ∃ c', c = c' + 1 := ⟨c - 1, by omega⟩
    refine ih (keeps_closeBrace hk) fun n => ?_
    have := hbal (n + 1)
    simp only [List.take_succ_cons, List.count_cons] at this
    simp at this
    omega
  | push f _ _ hb _ ih =>
    refine ih (keeps_push hF hb hk) fun n => ?_
    have := hbal (n + 1)
    simp only [List.take_succ_cons, List.count_cons] at this
    simpa using this
  | skip t ho hc _ ih =>
    refine ih hk fun n => ?_
    have := hbal (n + 1)
    simp only [List.take_succ_cons, List.count_cons, beq_iff_eq, ho, hc, if_false] at this
    simpa using this

theorem Keeps.mem (h : Keeps F below c s) : F ∈ s.frames ∧ ∀ g ∈ below, g ∈ s.frames := by
  obtain ⟨above, hs, _⟩ := h
  rw [hs]
  exact ⟨by simp, fun g hg => by simp [hg]⟩

end

end Scope

end SwiftAccess
