import SwiftAccess.Proofs.PublicRoundTrip

/-!
# Open frames are the unmatched braces

The scope stack pairs every `{` with a frame: the frame of the declaration waiting for its body,
or a new bare block. This module follows the stack token by token, through every point of a file,
and shows that the pairing is bracket matching. After any prefix of any token stream, not only
one the lexer can produce, the open frames of the stack, from the innermost out, are the frames
that the still unmatched `{` tokens opened, from the latest back; so the number of open frames is
the brace depth of the prefix, counted by a counter that never goes below zero
(`Brackets.depth`). A `}` removes the frame of its matching `{` together with the frames above it,
none of which is open, and leaves the frames below as its `{` found them; a `}` that matches
nothing empties a stack that holds no open frame.

The stacks a file passes through are `Scope.visits`: the empty stack, then the stack after each
token, with each token read in its line as `Scope.addLine` reads it (`Scope.trail`). The main
statement is `open_frames_follow_unmatched_braces`. It rests on an invariant of every run of the
stack's moves (`Scope.bracesMatched_of_isRun`), proved one token at a time from the lemmas of
`Scope.Keeps`.
-/

namespace SwiftAccess

namespace Brackets

/-- One token of a brace counter that never goes below zero. -/
def depthStep (d : Nat) (t : Token) : Nat :=
  if t = .punct .openBrace then d + 1 else if t = .punct .closeBrace then d - 1 else d

/-- The brace depth after a stream, counted from zero without going below it. -/
def depth (ts : List Token) : Nat := ts.foldl depthStep 0

theorem length_openAfter :
    ∀ (start : Nat) (pending : List Nat) (ts : List Token),
      (openAfter start pending ts).length = ts.foldl depthStep pending.length
  | _, _, [] => rfl
  | start, pending, t :: ts => by
    simp only [openAfter, List.foldl_cons, depthStep]
    split
    · rw [length_openAfter, List.length_cons]
    · split
      · rw [length_openAfter, List.length_tail]
      · rw [length_openAfter]

/-- As many braces are unmatched as the counter counts. -/
theorem length_unmatched (ts : List Token) : (unmatched ts).length = depth ts :=
  length_openAfter 0 [] ts

/-- The braces still open are listed from the latest back. -/
theorem pairwise_openAfter :
    ∀ {start : Nat} {pending : List Nat} (ts : List Token),
      pending.Pairwise (· > ·) → (∀ x ∈ pending, x < start) →
        (openAfter start pending ts).Pairwise (· > ·)
  | _, _, [], hp, _ => hp
  | start, pending, t :: ts, hp, hlt => by
    simp only [openAfter]
    split
    · exact pairwise_openAfter ts (List.pairwise_cons.2 ⟨fun x hx => hlt x hx, hp⟩)
        fun x hx => by rcases List.mem_cons.1 hx with rfl | hx <;> grind
    · split
      · exact pairwise_openAfter ts hp.tail fun x hx => by
          have := hlt x (List.mem_of_mem_tail hx); omega
      · exact pairwise_openAfter ts hp fun x hx => by have := hlt x hx; omega

theorem pairwise_unmatched (ts : List Token) : (unmatched ts).Pairwise (· > ·) :=
  pairwise_openAfter ts List.Pairwise.nil (by simp)

/-- One more token: a `{` is pushed as unmatched, a `}` matches the latest unmatched `{`. -/
theorem unmatched_take_succ {ts : List Token} {n : Nat} {t : Token} (ht : ts[n]? = some t) :
    unmatched (ts.take (n + 1)) =
      if t = .punct .openBrace then n :: unmatched (ts.take n)
      else if t = .punct .closeBrace then (unmatched (ts.take n)).tail
      else unmatched (ts.take n) := by
  have hn : n < ts.length := (List.getElem?_eq_some_iff.1 ht).1
  rw [List.take_add_one, ht, Option.toList_some, unmatched, openAfter_append,
    List.length_take_of_le (Nat.le_of_lt hn), Nat.zero_add]
  simp only [openAfter, unmatched]

/-- The braces unmatched after `n` tokens were opened before position `n`. -/
theorem lt_of_mem_unmatched_take {ts : List Token} {n p : Nat}
    (h : p ∈ unmatched (ts.take n)) : p < n := by
  have := lt_of_mem_openAfter (ts.take n) (by simp) p h
  simp only [List.length_take, Nat.zero_add] at this
  omega

end Brackets

namespace Scope

/-! ## What each move does to the open frames -/

theorem openCount_push (s : Scope) {f : Frame} (hf : f.braced = false) :
    (s.push f).openCount = s.openCount := by
  unfold push openCount
  cases hs : s.frames with
  | nil => simp [hf]
  | cons g rest =>
    by_cases hg : g.isBareProperty = true
    · have hgb : g.braced = false := by
        simp only [Frame.isBareProperty, Bool.and_eq_true, Bool.not_eq_eq_eq_not,
          Bool.not_true] at hg
        exact hg.2
      simp [hg, hf, hgb]
    · simp [hg, hf]

/-- A `{` always leaves an open frame on top. -/
theorem openBrace_top (s : Scope) (a : Option Access) :
    ∃ F below, (s.openBrace a).frames = F :: below ∧ F.braced = true := by
  unfold openBrace
  cases s.frames with
  | nil => exact ⟨_, _, rfl, rfl⟩
  | cons g rest =>
    by_cases hg : g.braced = true
    · exact ⟨{ access := a, keyword := none, braced := true, conformance := false }, g :: rest,
        by simp [hg], rfl⟩
    · exact ⟨{ g with braced := true }, rest, by simp [hg], rfl⟩

theorem openCount_openBrace (s : Scope) (a : Option Access) :
    (s.openBrace a).openCount = s.openCount + 1 := by
  unfold openBrace openCount
  cases s.frames with
  | nil => simp
  | cons g rest =>
    by_cases hg : g.braced = true
    · simp [hg]
    · simp only [Bool.not_eq_true] at hg
      simp [hg]

theorem countP_closeFrames :
    ∀ fs : List Frame, (closeFrames fs).countP (·.braced) = fs.countP (·.braced) - 1
  | [] => rfl
  | f :: rest => by
    by_cases hf : f.braced = true
    · simp [closeFrames, hf]
    · simp only [Bool.not_eq_true] at hf
      simp [closeFrames, hf, countP_closeFrames rest]

theorem openCount_closeBrace (s : Scope) : s.closeBrace.openCount = s.openCount - 1 :=
  countP_closeFrames s.frames

/-- A `}` removes the frames down to and including the first open one. -/
theorem closeFrames_unbraced_append {above : List Frame} (h : ∀ f ∈ above, f.braced = false)
    {F : Frame} (hF : F.braced = true) (below : List Frame) :
    closeFrames (above ++ F :: below) = below := by
  induction above with
  | nil => simp [closeFrames, hF]
  | cons g above ih =>
    simp only [List.cons_append, closeFrames, h g (List.mem_cons_self ..), Bool.false_eq_true,
      if_false]
    exact ih fun f hf => h f (List.mem_cons_of_mem _ hf)

/-- A `}` with no open frame below it removes every frame. -/
theorem closeFrames_eq_nil : ∀ {fs : List Frame}, (∀ f ∈ fs, f.braced = false) → closeFrames fs = []
  | [], _ => rfl
  | f :: rest, h => by
    simp only [closeFrames, h f (List.mem_cons_self ..), Bool.false_eq_true, if_false]
    exact closeFrames_eq_nil fun g hg => h g (List.mem_cons_of_mem _ hg)

theorem Keeps.unbraced_above {F : Frame} {below : List Frame} {s : Scope}
    (h : Keeps F below 0 s) :
    ∃ above, s.frames = above ++ F :: below ∧ ∀ f ∈ above, f.braced = false := by
  obtain ⟨above, hs, hc⟩ := h
  exact ⟨above, hs, fun f hf => by simpa using List.countP_eq_zero.1 hc f hf⟩

/-- What one token can do to the stack: a `{` opens a frame, a `}` closes one, and any other token
pushes a declaration that has no body yet or leaves the stack alone. -/
theorem Steps.single {s s' : Scope} {t : Token} (h : Steps s [t] s') :
    (t = .punct .openBrace ∧ ∃ a, s' = s.openBrace a) ∨
      (t = .punct .closeBrace ∧ s' = s.closeBrace) ∨
      (t ≠ .punct .openBrace ∧ t ≠ .punct .closeBrace ∧
        ((∃ f, f.braced = false ∧ s' = s.push f) ∨ s' = s)) := by
  cases h with
  | openBrace a h => cases h; exact .inl ⟨rfl, a, rfl⟩
  | closeBrace h => cases h; exact .inr (.inl ⟨rfl, rfl⟩)
  | push f _ _ hb h => cases h; exact .inr (.inr ⟨by simp, by simp, .inl ⟨f, hb, rfl⟩⟩)
  | skip _ ho hc h => cases h; exact .inr (.inr ⟨ho, hc, .inr rfl⟩)

/-! ## Runs with their stacks -/

/-- `V` lists the stacks of a run over `ts`: the first before it, then one after each token, each
reached from the one before by that token's move. -/
def IsRun (V : List Scope) (ts : List Token) : Prop :=
  V.length = ts.length + 1 ∧
    ∀ n s s' t, V[n]? = some s → V[n + 1]? = some s' → ts[n]? = some t → Steps s [t] s'

/-- At the point after `n` tokens, with stack `s`: the stack has as many open frames as braces are
unmatched, and each unmatched `{` at `p` put an open frame `F` on top of the stack `V[p + 1]`; that
frame and the frames below it are still in the stack, with as many open frames above them as
braces opened after `p` are unmatched. -/
def BracesMatched (V : List Scope) (ts : List Token) (n : Nat) (s : Scope) : Prop :=
  s.openCount = (Brackets.unmatched (ts.take n)).length ∧
    ∀ p ∈ Brackets.unmatched (ts.take n), ∃ F below, V[p + 1]? = some ⟨F :: below⟩ ∧
      F.braced = true ∧
        Keeps F below ((Brackets.unmatched (ts.take n)).filter (p < ·)).length s

section
variable {V : List Scope} {ts : List Token} {n : Nat} {s s' : Scope}

theorem bracesMatched_openBrace (hm : BracesMatched V ts n s) (hn : ts[n]? = some (.punct .openBrace))
    (a : Option Access) (hs' : V[n + 1]? = some (s.openBrace a)) :
    BracesMatched V ts (n + 1) (s.openBrace a) := by
  obtain ⟨hcount, hkeep⟩ := hm
  have hu := Brackets.unmatched_take_succ hn
  rw [if_pos rfl] at hu
  refine ⟨by rw [openCount_openBrace, hcount, hu, List.length_cons], fun p hp => ?_⟩
  rw [hu] at hp ⊢
  rcases List.mem_cons.1 hp with rfl | hp
  · -- the brace just read opened the top frame, with nothing above it
    obtain ⟨F, below, hF, hb⟩ := openBrace_top s a
    have hnone : (Brackets.unmatched (ts.take p)).filter (p < ·) = [] :=
      List.filter_eq_nil_iff.2 fun x hx => by
        have := Brackets.lt_of_mem_unmatched_take hx; simp; omega
    refine ⟨F, below, by rw [hs', ← hF], hb, [], by simp [hF], ?_⟩
    simp [hnone]
  · obtain ⟨F, below, hV, hb, hk⟩ := hkeep p hp
    have hpn : p < n := Brackets.lt_of_mem_unmatched_take hp
    refine ⟨F, below, hV, hb, ?_⟩
    rw [List.filter_cons_of_pos (by simpa using hpn), List.length_cons]
    exact keeps_openBrace hb a hk

theorem bracesMatched_closeBrace (hm : BracesMatched V ts n s)
    (hn : ts[n]? = some (.punct .closeBrace)) :
    BracesMatched V ts (n + 1) s.closeBrace := by
  obtain ⟨hcount, hkeep⟩ := hm
  have hu := Brackets.unmatched_take_succ hn
  rw [if_neg (by decide), if_pos rfl] at hu
  refine ⟨by rw [openCount_closeBrace, hcount, hu, List.length_tail], fun p hp => ?_⟩
  rw [hu] at hp ⊢
  -- the `}` matched the latest unmatched brace `q`, opened after `p`
  obtain ⟨q, rest, hqr⟩ : ∃ q rest, Brackets.unmatched (ts.take n) = q :: rest := by
    cases h : Brackets.unmatched (ts.take n) with
    | nil => rw [h] at hp; simp at hp
    | cons q rest => exact ⟨q, rest, rfl⟩
  rw [hqr, List.tail_cons] at hp ⊢
  have hqp : p < q := by
    have := Brackets.pairwise_unmatched (ts.take n)
    rw [hqr] at this
    exact (List.pairwise_cons.1 this).1 p hp
  obtain ⟨F, below, hV, hb, hk⟩ := hkeep p (by rw [hqr]; exact List.mem_cons_of_mem _ hp)
  rw [hqr, List.filter_cons_of_pos (by simpa using hqp), List.length_cons] at hk
  exact ⟨F, below, hV, hb, keeps_closeBrace hk⟩

theorem bracesMatched_other (hm : BracesMatched V ts n s) {t : Token} (hn : ts[n]? = some t)
    (ho : t ≠ .punct .openBrace) (hc : t ≠ .punct .closeBrace) (hcount : s'.openCount = s.openCount)
    (hkeeps : ∀ {F below c}, F.braced = true → Keeps F below c s → Keeps F below c s') :
    BracesMatched V ts (n + 1) s' := by
  obtain ⟨hcount', hkeep⟩ := hm
  have hu := Brackets.unmatched_take_succ hn
  simp only [ho, hc, if_false] at hu
  refine ⟨by rw [hcount, hcount', hu], fun p hp => ?_⟩
  rw [hu] at hp ⊢
  obtain ⟨F, below, hV, hb, hk⟩ := hkeep p hp
  exact ⟨F, below, hV, hb, hkeeps hb hk⟩

/-- One token of a run keeps the open frames matched to the unmatched braces. -/
theorem bracesMatched_step (hm : BracesMatched V ts n s) {t : Token} (hn : ts[n]? = some t)
    (hs' : V[n + 1]? = some s') (hstep : Steps s [t] s') : BracesMatched V ts (n + 1) s' := by
  rcases hstep.single with ⟨rfl, a, rfl⟩ | ⟨rfl, rfl⟩ | ⟨ho, hc, ⟨f, hf, rfl⟩ | rfl⟩
  · exact bracesMatched_openBrace hm hn a hs'
  · exact bracesMatched_closeBrace hm hn
  · -- a declaration without a body replaces at most a property without one
    exact bracesMatched_other hm hn ho hc (openCount_push s hf) fun hb hk => keeps_push hb hf hk
  · exact bracesMatched_other hm hn ho hc rfl fun _ hk => hk

/-- Every point of a run from the empty stack has its open frames matched to the unmatched braces
of the tokens read so far. The induction runs over the points; each step is one token's move. -/
theorem bracesMatched_of_isRun (hrun : IsRun V ts) (h0 : V[0]? = some ⟨[]⟩) :
    ∀ n s, V[n]? = some s → BracesMatched V ts n s
  | 0, s, hs => by
    rw [h0, Option.some.injEq] at hs
    subst hs
    exact ⟨rfl, fun p hp => by simp [Brackets.unmatched, Brackets.openAfter] at hp⟩
  | n + 1, s', hs' => by
    have hlt : n + 1 < ts.length + 1 := by
      rw [← hrun.1]; exact (List.getElem?_eq_some_iff.1 hs').1
    have hn : n < V.length := by rw [hrun.1]; omega
    have hn' : n < ts.length := by omega
    obtain ⟨s, hs⟩ : ∃ s, V[n]? = some s := ⟨V[n], List.getElem?_eq_getElem hn⟩
    obtain ⟨t, ht⟩ : ∃ t, ts[n]? = some t := ⟨ts[n], List.getElem?_eq_getElem hn'⟩
    exact bracesMatched_step (bracesMatched_of_isRun hrun h0 n s hs) ht hs'
      (hrun.2 n s s' t hs hs' ht)

end

theorem IsRun.cons {s s' : Scope} {V : List Scope} {t : Token} {ts : List Token}
    (hst : Steps s [t] s') (h : IsRun (s' :: V) ts) : IsRun (s :: s' :: V) (t :: ts) := by
  refine ⟨by simp [← h.1], fun n u u' x hu hu' hx => ?_⟩
  cases n with
  | zero =>
    simp only [List.getElem?_cons_zero, List.getElem?_cons_succ, Option.some.injEq] at hu hu' hx
    subst hu hu' hx
    exact hst
  | succ n =>
    simp only [List.getElem?_cons_succ] at hu hu' hx
    exact h.2 n u u' x hu hu' hx

/-- Two runs, the second starting where the first ends, make one run. -/
theorem IsRun.append {V W : List Scope} {s : Scope} {xs ys : List Token}
    (h₁ : IsRun (V ++ [s]) xs) (h₂ : IsRun (s :: W) ys) : IsRun (V ++ s :: W) (xs ++ ys) := by
  have hV : V.length = xs.length := by simpa using h₁.1
  have hW : W.length = ys.length := by simpa using h₂.1
  refine ⟨by simp [hV, hW]; omega, fun n u u' x hu hu' hx => ?_⟩
  by_cases hn : n < V.length
  · -- a token of the first run
    have e₁ : (V ++ s :: W)[n]? = (V ++ [s])[n]? := by
      rw [List.getElem?_append_left hn, List.getElem?_append_left hn]
    have e₂ : (V ++ s :: W)[n + 1]? = (V ++ [s])[n + 1]? := by
      by_cases hn' : n + 1 < V.length
      · rw [List.getElem?_append_left hn', List.getElem?_append_left hn']
      · rw [List.getElem?_append_right (by omega), List.getElem?_append_right (by omega),
          show n + 1 - V.length = 0 by omega]
        rfl
    rw [List.getElem?_append_left (by omega)] at hx
    exact h₁.2 n u u' x (e₁ ▸ hu) (e₂ ▸ hu') hx
  · -- a token of the second run
    obtain ⟨m, rfl⟩ : ∃ m, n = V.length + m := ⟨n - V.length, by omega⟩
    rw [List.getElem?_append_right (by omega), Nat.add_sub_cancel_left] at hu
    rw [show V.length + m + 1 = V.length + (m + 1) by omega,
      List.getElem?_append_right (by omega), Nat.add_sub_cancel_left] at hu'
    rw [List.getElem?_append_right (by omega), hV, Nat.add_sub_cancel_left] at hx
    exact h₂.2 m u u' x hu hu' hx

/-! ## The stacks a file passes through -/

/-- The stacks that a line's tokens pass through from `s`, one after each token, with the line's
access and the token before carried along as `Scope.addTokens` carries them. -/
def trail (s : Scope) (la : Option Access) (prev : Option Token) : List Token → List Scope
  | [] => []
  | t :: rest =>
    let s' := s.move la prev rest t
    s' :: s'.trail (t.lineAccess la) (some t) rest

/-- The stacks that folding lines into `s` passes through, one after each token. -/
def trailLines (s : Scope) : List (List Token) → List Scope
  | [] => []
  | ts :: tss => s.trail none none ts ++ (s.addLine ts).trailLines tss

/-- The stacks that folding token lines into the empty stack passes through: the empty stack, then
the stack after each token. -/
def visits (tss : List (List Token)) : List Scope := ({} : Scope) :: ({} : Scope).trailLines tss

/-- A token's move in context is one of the moves of `Scope.Steps`. -/
theorem move_steps (s : Scope) (la : Option Access) (prev : Option Token) (rest : List Token)
    (t : Token) : Steps s [t] (s.move la prev rest t) := by
  have hnil : ∀ u : Scope, Steps u [] u := Steps.nil
  cases t with
  | keyword k =>
    simp only [move]
    split
    · exact .skip _ (by simp) (by simp) (hnil _)
    · split
      · next hk =>
        simp only [Bool.and_eq_true, Bool.not_eq_eq_eq_not, Bool.not_true] at hk
        split
        · exact .skip _ (by simp) (by simp) (hnil _)
        · split
          · exact .skip _ (by simp) (by simp) (hnil _)
          · exact .push _ hk.1 rfl rfl (hnil _)
      · exact .skip _ (by simp) (by simp) (hnil _)
  | punct p =>
    cases p with
    | openBrace => exact .openBrace _ (hnil _)
    | closeBrace => exact .closeBrace (hnil _)
    | colon | equals => exact .skip _ (by simp) (by simp) (hnil _)
  | identifier _ | «attribute» _ => exact .skip _ (by simp) (by simp) (hnil _)

/-- A line's stacks end with the stack `Scope.addTokens` leaves. -/
theorem trail_eq_append :
    ∀ (s : Scope) (la : Option Access) (prev : Option Token) (ts : List Token),
      ∃ V, s :: s.trail la prev ts = V ++ [s.addTokens la prev ts] ∧ V.length = ts.length
  | s, _, _, [] => ⟨[], rfl, rfl⟩
  | s, la, prev, t :: rest => by
    obtain ⟨V, hV, hlen⟩ := trail_eq_append (s.move la prev rest t) (t.lineAccess la) (some t) rest
    refine ⟨s :: V, ?_, by simp [hlen]⟩
    rw [trail, hV, addTokens_cons]
    rfl

theorem isRun_trail :
    ∀ (s : Scope) (la : Option Access) (prev : Option Token) (ts : List Token),
      IsRun (s :: s.trail la prev ts) ts
  | s, _, _, [] => ⟨rfl, fun n u u' x _ _ hx => by simp at hx⟩
  | s, la, prev, t :: rest => by
    simp only [trail]
    exact IsRun.cons (move_steps s la prev rest t) (isRun_trail _ _ _ rest)

/-- A file's stacks are a line's stacks, then, from the stack it leaves, the next lines'. -/
theorem cons_trailLines_cons (s : Scope) (ts : List Token) (tss : List (List Token)) :
    ∃ V, s :: s.trailLines (ts :: tss) = V ++ s.addLine ts :: (s.addLine ts).trailLines tss ∧
      s :: s.trail none none ts = V ++ [s.addLine ts] := by
  obtain ⟨V, hV, -⟩ := trail_eq_append s none none ts
  refine ⟨V, ?_, hV⟩
  rw [trailLines, ← List.cons_append, hV, List.append_assoc]
  rfl

theorem isRun_trailLines :
    ∀ (s : Scope) (tss : List (List Token)), IsRun (s :: s.trailLines tss) tss.flatten
  | s, [] => ⟨rfl, fun n u u' x _ _ hx => by simp at hx⟩
  | s, ts :: tss => by
    obtain ⟨V, e, hV⟩ := cons_trailLines_cons s ts tss
    have h₁ : IsRun (V ++ [s.addLine ts]) ts := hV ▸ isRun_trail s none none ts
    rw [e, List.flatten_cons]
    exact IsRun.append h₁ (isRun_trailLines (s.addLine ts) tss)

end Scope

/-- Folding token lines into an empty scope stack, at every point: the stack holds as many open
frames as the brace depth of the tokens read so far. Each `{` still unmatched opened a frame `F`,
the top of the stack right after it, and `F` with the frames below it is still in the stack,
under as many open frames as there are braces opened after it and still unmatched; so the open
frames, from the innermost out, are those of the unmatched braces from the latest back. A `}`
that matches a `{` removes that brace's frame and the frames above it, none of them open, and
leaves the frames below as the `{` found them; a `}` that matches nothing removes every frame,
none of which is open. -/
theorem open_frames_follow_unmatched_braces (tss : List (List Token)) (n : Nat) (s : Scope)
    (hs : (Scope.visits tss)[n]? = some s) :
    s.openCount = Brackets.depth (tss.flatten.take n) ∧
    (∀ p ∈ Brackets.unmatched (tss.flatten.take n), ∃ F below above,
      (Scope.visits tss)[p + 1]? = some ⟨F :: below⟩ ∧ F.braced = true ∧
        s.frames = above ++ F :: below ∧
        above.countP (·.braced) = ((Brackets.unmatched (tss.flatten.take n)).filter (p < ·)).length) ∧
    (tss.flatten[n]? = some (.punct .closeBrace) → ∃ s', (Scope.visits tss)[n + 1]? = some s' ∧
      (Brackets.unmatched (tss.flatten.take n) = [] →
        (∀ f ∈ s.frames, f.braced = false) ∧ s'.frames = []) ∧
      ∀ p rest, Brackets.unmatched (tss.flatten.take n) = p :: rest → ∃ F below above,
        (Scope.visits tss)[p + 1]? = some ⟨F :: below⟩ ∧ s.frames = above ++ F :: below ∧
          (∀ f ∈ above, f.braced = false) ∧ s'.frames = below) := by
  have hrun := Scope.isRun_trailLines {} tss
  have hm := Scope.bracesMatched_of_isRun hrun rfl n s hs
  refine ⟨by rw [hm.1, Brackets.length_unmatched], fun p hp => ?_, fun hc => ?_⟩
  · obtain ⟨F, below, hV, hb, above, hfr, hcount⟩ := hm.2 p hp
    exact ⟨F, below, above, hV, hb, hfr, hcount⟩
  -- the `}` at `n` is followed by the stack its move leaves
  obtain ⟨s', hs'⟩ : ∃ s', (Scope.visits tss)[n + 1]? = some s' := by
    have hn : n < tss.flatten.length := (List.getElem?_eq_some_iff.1 hc).1
    have hlen : n + 1 < (Scope.visits tss).length := by rw [Scope.visits, hrun.1]; omega
    exact ⟨_, List.getElem?_eq_getElem hlen⟩
  have hclose : s' = s.closeBrace := by
    rcases (hrun.2 n s s' _ hs hs' hc).single with ⟨h, -⟩ | ⟨-, h⟩ | ⟨-, h, -⟩
    · cases h
    · exact h
    · exact absurd rfl h
  refine ⟨s', hs', fun hnil => ?_, fun p rest hpr => ?_⟩
  · -- no brace is open, so no frame is
    have hzero : s.openCount = 0 := by rw [hm.1, hnil]; rfl
    have hall : ∀ f ∈ s.frames, f.braced = false := fun f hf => by
      simpa using List.countP_eq_zero.1 hzero f hf
    exact ⟨hall, by rw [hclose]; exact Scope.closeFrames_eq_nil hall⟩
  · -- the latest unmatched brace has no open frame above its own
    obtain ⟨F, below, hV, hb, hk⟩ := hm.2 p (by rw [hpr]; exact List.mem_cons_self ..)
    have hnone : (Brackets.unmatched (tss.flatten.take n)).filter (p < ·) = [] := by
      have := Brackets.pairwise_unmatched (tss.flatten.take n)
      rw [hpr] at this ⊢
      rw [List.filter_cons_of_neg (by simp), List.filter_eq_nil_iff]
      intro x hx
      have := (List.pairwise_cons.1 this).1 x hx
      simp only [decide_eq_true_eq]
      omega
    rw [hnone] at hk
    obtain ⟨above, hfr, hun⟩ := hk.unbraced_above
    refine ⟨F, below, above, hV, hfr, hun, ?_⟩
    rw [hclose, Scope.closeBrace, hfr, Scope.closeFrames_unbraced_append hun hb]

/-- A function body inside a structure: at its closing brace the stack holds the function's frame
over the structure's, both open, matched to the two braces still open. -/
theorem function_body_closing_brace :
    let tss : List (List Token) := [[.keyword .struct, .identifier "S", .punct .openBrace],
      [.keyword .func, .identifier "f", .punct .openBrace, .punct .closeBrace], [.punct .closeBrace]]
    let s : Scope := ⟨[⟨none, some .func, true, false⟩, ⟨none, some .struct, true, false⟩]⟩
    (Scope.visits tss)[6]? = some s ∧
      (s.openCount = Brackets.depth (tss.flatten.take 6) ∧
        (∀ p ∈ Brackets.unmatched (tss.flatten.take 6), ∃ F below above,
          (Scope.visits tss)[p + 1]? = some ⟨F :: below⟩ ∧ F.braced = true ∧
            s.frames = above ++ F :: below ∧
            above.countP (·.braced) =
              ((Brackets.unmatched (tss.flatten.take 6)).filter (p < ·)).length) ∧
        (tss.flatten[6]? = some (.punct .closeBrace) → ∃ s', (Scope.visits tss)[6 + 1]? = some s' ∧
          (Brackets.unmatched (tss.flatten.take 6) = [] →
            (∀ f ∈ s.frames, f.braced = false) ∧ s'.frames = []) ∧
          ∀ p rest, Brackets.unmatched (tss.flatten.take 6) = p :: rest → ∃ F below above,
            (Scope.visits tss)[p + 1]? = some ⟨F :: below⟩ ∧ s.frames = above ++ F :: below ∧
              (∀ f ∈ above, f.braced = false) ∧ s'.frames = below)) :=
  ⟨by decide, open_frames_follow_unmatched_braces _ 6 _ (by decide)⟩

end SwiftAccess
