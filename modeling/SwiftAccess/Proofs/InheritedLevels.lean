import SwiftAccess.Proofs.BraceFrames

/-!
# Scopes compared level by level

A rewrite changes the access written on some lines, and with it the access of the frames those
lines push. Whether a later line may carry a modifier reads only the shape of the stack
(`Scope.Similar`), but the level a member gets when it states none reads the accesses, through
`Scope.inheritedLevel`. `Scope.Levels R s s'` compares two scopes of one shape by the levels their
frames pass on: at every depth `n`, `R` relates what the frames of `s` below the first `n` pass on
to what those of `s'` pass on. The member level is one of these (`Scope.Levels.memberLevel`).

A stack holds a property without a body only on top (`Scope.BareOnTop`), so a frame is always
pushed onto frames that pass on the member level. Pushing frames of accesses `a` and `a'` keeps
the comparison when `R` relates what they pass on over every pair of related member levels
(`Scope.PushOK`); an opening brace pushes a block or changes no access, and a closing brace drops
as many frames on both sides. Along a line, the comparison is kept when every scope the line opens
is opened where the accesses written so far allow it (`Scope.Levels.addTokens`), also when one of
the lines has an inert token written, removed or replaced at a place where the scope does not read
two neighbours together (`Scope.Levels.addTokens_edit`).
-/

namespace SwiftAccess

/-- Whether a token may open a scope: a structural keyword or `{`. -/
def Token.opensScope : Token → Bool
  | .keyword k => k.structural
  | .punct .openBrace => true
  | _ => false

/-- Only an access modifier changes the access written on a line. -/
theorem Token.lineAccess_of_not_access {t : Token} (ht : t.isAccessModifier = false)
    (la : Option Access) : t.lineAccess la = la := by
  cases t with
  | keyword k =>
    have hk : k.access? = none := by
      simpa [Token.isAccessModifier, Token.keyword?, Keyword.isAccess] using ht
    simp [Token.lineAccess, hk]
  | punct _ | identifier _ | «attribute» _ => rfl

namespace Scope

/-! ## Levels passed on -/

/-- The level a frame of access `a` passes on, over frames that pass on `below`. -/
def passOn (a : Option Access) (below : Access) : Access :=
  (a.map Access.clampToInternal).getD below

theorem inheritedLevel_cons (f : Frame) (fs : List Frame) :
    inheritedLevel (f :: fs) = passOn f.access (inheritedLevel fs) := by
  cases h : f.access <;> simp [inheritedLevel, passOn, h]

theorem inheritedLevel_rank_le (fs : List Frame) : (inheritedLevel fs).rank ≤ 0 := by
  unfold inheritedLevel
  split
  · exact Access.clampToInternal_rank_le _
  · decide

theorem memberLevel_rank_le (s : Scope) : s.memberLevel.rank ≤ 0 :=
  inheritedLevel_rank_le _

/-- Over a level at most `internal`, a frame passes on a level at most `internal`. -/
theorem passOn_rank_le (a : Option Access) {x : Access} (hx : x.rank ≤ 0) :
    (passOn a x).rank ≤ 0 := by
  cases a with
  | none => exact hx
  | some b => exact Access.clampToInternal_rank_le b

/-! ## Frames dropped alike -/

/-- Stacks of one shape lose as many frames below a bare property on top. -/
theorem dropWhile_bare_of_similar :
    ∀ {fs fs' : List Frame}, fs.map Frame.shape = fs'.map Frame.shape →
      ∃ k, fs.dropWhile (·.isBareProperty) = fs.drop k ∧
        fs'.dropWhile (·.isBareProperty) = fs'.drop k
  | [], [], _ => ⟨0, rfl, rfl⟩
  | g :: rest, fs', h => by
    obtain ⟨g', rest', rfl, hg, hrest⟩ := similar_cons h
    have hbare : g.isBareProperty = g'.isBareProperty := by
      rw [← Frame.isBareProperty_shape, hg, Frame.isBareProperty_shape]
    by_cases hb : g.isBareProperty = true
    · obtain ⟨k, h₁, h₂⟩ := dropWhile_bare_of_similar hrest
      refine ⟨k + 1, ?_, ?_⟩
      · rw [List.dropWhile_cons_of_pos hb, h₁]
        rfl
      · rw [List.dropWhile_cons_of_pos (hbare ▸ hb), h₂]
        rfl
    · refine ⟨0, ?_, ?_⟩
      · rw [List.dropWhile_cons_of_neg hb]
        rfl
      · rw [List.dropWhile_cons_of_neg (hbare ▸ hb)]
        rfl

/-- Stacks of one shape lose as many frames to a closing brace. -/
theorem closeFrames_of_similar :
    ∀ {fs fs' : List Frame}, fs.map Frame.shape = fs'.map Frame.shape →
      ∃ k, closeFrames fs = fs.drop k ∧ closeFrames fs' = fs'.drop k
  | [], [], _ => ⟨0, rfl, rfl⟩
  | g :: rest, fs', h => by
    obtain ⟨g', rest', rfl, hg, hrest⟩ := similar_cons h
    have hbraced : g.braced = g'.braced := by
      have := congrArg Frame.braced hg
      exact this
    by_cases hb : g.braced = true
    · exact ⟨1, by simp [closeFrames, hb], by simp [closeFrames, ← hbraced, hb]⟩
    · obtain ⟨k, h₁, h₂⟩ := closeFrames_of_similar hrest
      exact ⟨k + 1, by simp [closeFrames, hb, h₁], by simp [closeFrames, ← hbraced, hb, h₂]⟩

/-! ## A bare property only on top -/

/-- Only the innermost frame may be a property without a body: pushing a declaration ends one. -/
def BareOnTop (s : Scope) : Prop := ∀ f ∈ s.frames.tail, f.isBareProperty = false

section BareOnTop

variable {s s' : Scope}

theorem bareOnTop_empty : BareOnTop {} := fun _ hf => nomatch hf

theorem BareOnTop.of_similar (h : BareOnTop s) (hsim : Similar s s') : BareOnTop s' := by
  intro f hf
  have hmem : f.shape ∈ (s.frames.map Frame.shape).tail := by
    rw [hsim, ← List.map_tail]
    exact List.mem_map_of_mem hf
  rw [← List.map_tail] at hmem
  obtain ⟨g, hg, hgf⟩ := List.mem_map.1 hmem
  rw [← Frame.isBareProperty_shape, ← hgf, Frame.isBareProperty_shape]
  exact h g hg

/-- With no bare property below the top, the member level is passed on by the frames below a
bare property on top, or by all of them. -/
theorem BareOnTop.memberLevel_cons (h : BareOnTop s) {g : Frame} {rest : List Frame}
    (hs : s.frames = g :: rest) :
    s.memberLevel = if g.isBareProperty then inheritedLevel rest else inheritedLevel (g :: rest) := by
  have hrest : rest.dropWhile (·.isBareProperty) = rest := by
    cases rest with
    | nil => rfl
    | cons f fs =>
      have hf : f.isBareProperty = false := h f (by simp [hs])
      exact List.dropWhile_cons_of_neg (by simp [hf])
  unfold memberLevel
  rw [hs]
  by_cases hb : g.isBareProperty = true
  · rw [List.dropWhile_cons_of_pos hb, hrest, if_pos hb]
  · rw [List.dropWhile_cons_of_neg hb, if_neg hb]

theorem BareOnTop.push (h : BareOnTop s) (f : Frame) : BareOnTop (s.push f) := by
  unfold Scope.push
  cases hs : s.frames with
  | nil => exact fun _ hg => nomatch hg
  | cons g rest =>
    have hrest : ∀ f ∈ rest, f.isBareProperty = false := fun f hf => h f (by simp [hs, hf])
    dsimp only
    split
    · exact hrest
    · next hg =>
      intro f' hf'
      rcases List.mem_cons.1 hf' with rfl | hf'
      · simpa using hg
      · exact hrest f' hf'

theorem BareOnTop.openBrace (h : BareOnTop s) (a : Option Access) : BareOnTop (s.openBrace a) := by
  unfold Scope.openBrace
  cases hs : s.frames with
  | nil => exact fun _ hg => nomatch hg
  | cons g rest =>
    have hrest : ∀ f ∈ rest, f.isBareProperty = false := fun f hf => h f (by simp [hs, hf])
    dsimp only
    split
    · next hg =>
      intro f' hf'
      rcases List.mem_cons.1 hf' with rfl | hf'
      · simp [Frame.isBareProperty, hg]
      · exact hrest f' hf'
    · exact hrest

theorem BareOnTop.closeBrace (h : BareOnTop s) : BareOnTop s.closeBrace := by
  obtain ⟨k, hk, -⟩ := closeFrames_of_similar (Similar.refl s)
  intro f hf
  change f ∈ (closeFrames s.frames).tail at hf
  rw [hk, List.tail_drop, ← List.drop_tail] at hf
  exact h f (List.mem_of_mem_drop hf)

theorem BareOnTop.move (h : BareOnTop s) (la : Option Access) (prev : Option Token)
    (rest : List Token) (t : Token) : BareOnTop (s.move la prev rest t) := by
  cases t with
  | keyword k =>
    simp only [Scope.move]
    cases k.access? with
    | some _ => exact h
    | none =>
      simp only
      -- a label, the `while` of a `repeat` loop, a new frame, or a keyword the stack ignores
      split_ifs
      · exact h
      · exact h
      · exact h.push _
      · exact h
  | punct p =>
    cases p with
    | openBrace => exact h.openBrace la
    | closeBrace => exact h.closeBrace
    | colon | equals => exact h
  | identifier _ | «attribute» _ => exact h

theorem BareOnTop.addTokens :
    ∀ (ts : List Token) {s : Scope} {la : Option Access} {prev : Option Token},
      BareOnTop s → BareOnTop (s.addTokens la prev ts)
  | [], _, _, _, h => h
  | t :: ts, s, la, prev, h => by
    rw [addTokens_cons]
    exact BareOnTop.addTokens ts (h.move la prev ts t)

theorem BareOnTop.addLine (h : BareOnTop s) (ts : List Token) : BareOnTop (s.addLine ts) :=
  BareOnTop.addTokens ts h

end BareOnTop

theorem bareOnTop_scopeAfter (tss : List (List Token)) (i : Nat) :
    BareOnTop (scopeAfter {} tss i) := by
  unfold scopeAfter
  generalize tss.take i = tss
  induction tss using List.reverseRecOn with
  | nil => exact bareOnTop_empty
  | append_singleton tss ts ih =>
    rw [List.foldl_append, List.foldl_cons, List.foldl_nil]
    exact ih.addLine ts

/-! ## The comparison -/

/-- Two scopes of one shape whose frames pass on levels related by `R` at every depth. -/
structure Levels (R : Access → Access → Prop) (s s' : Scope) : Prop where
  similar : s.Similar s'
  level : ∀ n, R (inheritedLevel (s.frames.drop n)) (inheritedLevel (s'.frames.drop n))

/-- What pushing frames of accesses `a` and `a'` asks of `R`, over frames that pass on `x` and a
level related to it. -/
def PushOK (R : Access → Access → Prop) (a a' : Option Access) (x : Access) : Prop :=
  ∀ y, y.rank ≤ 0 → R x y → R (passOn a x) (passOn a' y)

section Levels

variable {R : Access → Access → Prop} {s s' s'' : Scope}

theorem Levels.refl (hrefl : ∀ x, R x x) (s : Scope) : Levels R s s :=
  ⟨Similar.refl s, fun _ => hrefl _⟩

theorem Levels.trans_eq (h : Levels R s s') (h' : Levels Eq s' s'') : Levels R s s'' :=
  ⟨h.similar.trans h'.similar, fun n => h'.level n ▸ h.level n⟩

theorem Levels.mono {R' : Access → Access → Prop} (himp : ∀ x y, R x y → R' x y)
    (h : Levels R s s') : Levels R' s s' :=
  ⟨h.similar, fun n => himp _ _ (h.level n)⟩

theorem Levels.memberLevel (h : Levels R s s') : R s.memberLevel s'.memberLevel := by
  obtain ⟨k, h₁, h₂⟩ := dropWhile_bare_of_similar h.similar
  unfold Scope.memberLevel
  rw [h₁, h₂]
  exact h.level k

/-- Writing the same access keeps every reflexive comparison. -/
theorem pushOK_same (hrefl : ∀ x, R x x) (a : Option Access) (x : Access) : PushOK R a a x := by
  intro y _ hxy
  cases a with
  | none => exact hxy
  | some v => exact hrefl _

theorem push_frames_cons {g : Frame} {rest : List Frame} (hs : s.frames = g :: rest) (f : Frame) :
    (s.push f).frames = if g.isBareProperty then f :: rest else f :: g :: rest := by
  unfold Scope.push
  rw [hs]
  by_cases hb : g.isBareProperty = true <;> simp [hb]

theorem openBrace_frames_cons {g : Frame} {rest : List Frame} (hs : s.frames = g :: rest)
    (a : Option Access) :
    (s.openBrace a).frames = if g.braced then
      { access := a, keyword := none, braced := true, conformance := false } :: g :: rest
    else { g with braced := true } :: rest := by
  unfold Scope.openBrace
  rw [hs]
  by_cases hb : g.braced = true <;> simp [hb]

/-- Two scopes of one shape are both empty or both not. -/
theorem Similar.frames_cons (h : Similar s s') {g : Frame} {rest : List Frame}
    (hs : s.frames = g :: rest) :
    ∃ g' rest', s'.frames = g' :: rest' ∧ g.shape = g'.shape :=
  let ⟨g', rest', hs', hg, _⟩ := similar_cons (hs ▸ h : (g :: rest).map Frame.shape = _)
  ⟨g', rest', hs', hg⟩

theorem Similar.frames_nil (h : Similar s s') (hs : s.frames = []) : s'.frames = [] := by
  have := h
  unfold Similar at this
  rw [hs] at this
  exact List.map_eq_nil_iff.1 this.symm

/-- Over no frames, a pushed frame or a block passes on what its access gives. -/
theorem Levels.cons_nil (h : Levels R s s') (hs : s.frames = []) (f f' : Frame)
    (hpush : PushOK R f.access f'.access s.memberLevel) :
    ∀ n, R (inheritedLevel ((f :: s.frames).drop n)) (inheritedLevel ((f' :: s'.frames).drop n)) := by
  have h0 := h.level 0
  rw [hs, h.similar.frames_nil hs] at h0 ⊢
  have hm : s.memberLevel = inheritedLevel [] := by simp [Scope.memberLevel, hs]
  intro n
  cases n with
  | zero =>
    rw [List.drop_zero, List.drop_zero, inheritedLevel_cons, inheritedLevel_cons]
    rw [hm] at hpush
    exact hpush _ (inheritedLevel_rank_le _) h0
  | succ n => simpa using h0

theorem Levels.push (h : Levels R s s') (hs : BareOnTop s) {f f' : Frame}
    (hf : f.shape = f'.shape) (hpush : PushOK R f.access f'.access s.memberLevel) :
    Levels R (s.push f) (s'.push f') := by
  refine ⟨h.similar.push hf, fun n => ?_⟩
  cases hfs : s.frames with
  | nil =>
    have hfs' := h.similar.frames_nil hfs
    have := h.cons_nil hfs f f' hpush n
    simpa [Scope.push, hfs, hfs'] using this
  | cons g rest =>
    obtain ⟨g', rest', hfs', hg⟩ := h.similar.frames_cons hfs
    have hbare : g.isBareProperty = g'.isBareProperty := by
      rw [← Frame.isBareProperty_shape, hg, Frame.isBareProperty_shape]
    rw [push_frames_cons hfs, push_frames_cons hfs', ← hbare]
    have hm := hs.memberLevel_cons hfs
    -- the frames the pushed one sits on pass on the member level
    by_cases hb : g.isBareProperty = true
    · rw [if_pos hb] at hm ⊢
      rw [if_pos hb]
      cases n with
      | zero =>
        have h1 := h.level 1
        rw [hfs, hfs'] at h1
        rw [hm] at hpush
        rw [List.drop_zero, List.drop_zero, inheritedLevel_cons f, inheritedLevel_cons f']
        exact hpush _ (inheritedLevel_rank_le _) h1
      | succ n =>
        have h' := h.level (n + 1)
        rw [hfs, hfs'] at h'
        simpa using h'
    · rw [if_neg hb] at hm ⊢
      rw [if_neg hb]
      cases n with
      | zero =>
        have h0 := h.level 0
        rw [hfs, hfs'] at h0
        rw [hm] at hpush
        rw [List.drop_zero, List.drop_zero, inheritedLevel_cons f, inheritedLevel_cons f']
        exact hpush _ (inheritedLevel_rank_le _) h0
      | succ n =>
        have h' := h.level n
        rw [hfs, hfs'] at h'
        simpa using h'

theorem Levels.openBrace (h : Levels R s s') {a a' : Option Access}
    (hpush : PushOK R a a' s.memberLevel) : Levels R (s.openBrace a) (s'.openBrace a') := by
  refine ⟨h.similar.openBrace a a', fun n => ?_⟩
  cases hfs : s.frames with
  | nil =>
    have hfs' := h.similar.frames_nil hfs
    have := h.cons_nil hfs ⟨a, none, true, false⟩ ⟨a', none, true, false⟩ hpush n
    simpa [Scope.openBrace, hfs, hfs'] using this
  | cons g rest =>
    obtain ⟨g', rest', hfs', hg⟩ := h.similar.frames_cons hfs
    have hbraced : g.braced = g'.braced := by
      have := congrArg Frame.braced hg
      exact this
    rw [openBrace_frames_cons hfs, openBrace_frames_cons hfs', ← hbraced]
    by_cases hb : g.braced = true
    · rw [if_pos hb, if_pos hb]
      cases n with
      | zero =>
        have h0 := h.level 0
        rw [hfs, hfs'] at h0
        -- a braced top is not a bare property, so all frames pass on the member level
        have hm : s.memberLevel = inheritedLevel (g :: rest) := by
          unfold Scope.memberLevel
          rw [hfs, List.dropWhile_cons_of_neg (by simp [Frame.isBareProperty, hb])]
        rw [List.drop_zero, List.drop_zero, inheritedLevel_cons,
          inheritedLevel_cons (f := ⟨a', none, true, false⟩)]
        rw [hm] at hpush
        exact hpush _ (inheritedLevel_rank_le _) h0
      | succ n =>
        have h' := h.level n
        rw [hfs, hfs'] at h'
        simpa using h'
    · rw [if_neg hb, if_neg hb]
      -- the top frame opens its body and keeps its access
      have h' := h.level n
      rw [hfs, hfs'] at h'
      cases n with
      | zero => simpa [inheritedLevel_cons] using h'
      | succ n => simpa using h'

theorem Levels.closeBrace (h : Levels R s s') : Levels R s.closeBrace s'.closeBrace := by
  obtain ⟨k, h₁, h₂⟩ := closeFrames_of_similar h.similar
  refine ⟨h.similar.closeBrace, fun n => ?_⟩
  simp only [Scope.closeBrace, h₁, h₂, List.drop_drop]
  exact h.level (k + n)

/-- What one token does to two scopes of one shape, when what it reads around it agrees: both
stay, both push frames alike but for access, both open a brace, or both close one. -/
theorem Similar.move_cases (h : Similar s s') (t : Token) {la la' : Option Access}
    {prev prev' : Option Token} {rest rest' : List Token}
    (hcolon : (∃ k, t = .keyword k ∧ k.structural = true) →
      (rest.head? = some (.punct .colon) ↔ rest'.head? = some (.punct .colon)))
    (hconf : declaresConformance rest = declaresConformance rest')
    (hprev : t = .keyword .«while» →
      (prev = some (.punct .closeBrace) ↔ prev' = some (.punct .closeBrace))) :
    (s.move la prev rest t = s ∧ s'.move la' prev' rest' t = s') ∨
    (t.opensScope = true ∧ ∃ f f' : Frame, f.shape = f'.shape ∧ f.access = la ∧ f'.access = la' ∧
      s.move la prev rest t = s.push f ∧ s'.move la' prev' rest' t = s'.push f') ∨
    (t.opensScope = true ∧ s.move la prev rest t = s.openBrace la ∧
      s'.move la' prev' rest' t = s'.openBrace la') ∨
    (s.move la prev rest t = s.closeBrace ∧ s'.move la' prev' rest' t = s'.closeBrace) := by
  cases t with
  | keyword k =>
    simp only [Scope.move]
    cases k.access? with
    | some _ => exact .inl ⟨rfl, rfl⟩
    | none =>
      simp only
      rw [h.declares]
      by_cases hk : k.structural && !s'.declares .protocol
      · have hs : k.structural = true := by simp_all
        have hc := hcolon ⟨k, rfl, hs⟩
        by_cases hr : rest.head? = some (.punct .colon)
        · exact .inl (by simp [hk, hr, hc.1 hr])
        · have hr' : ¬rest'.head? = some (.punct .colon) := fun h' => hr (hc.2 h')
          by_cases hw : k = .«while» ∧ prev = some (.punct .closeBrace)
          · have hpv' : prev' = some (.punct .closeBrace) := (hprev (by rw [hw.1])).1 hw.2
            exact .inl (by simp [hr, hr', hw.1, hw.2, hpv'])
          · have hw' : ¬(k = .«while» ∧ prev' = some (.punct .closeBrace)) := fun h' =>
              hw ⟨h'.1, (hprev (by rw [h'.1])).2 h'.2⟩
            refine .inr (.inl ⟨hs, ⟨la, some k, false, k == .extension && declaresConformance rest⟩,
              ⟨la', some k, false, k == .extension && declaresConformance rest'⟩,
              by simp [Frame.shape, hconf], rfl, rfl, ?_, ?_⟩)
            · simp only [hk, if_true, beq_iff_eq, hr, if_false]
              rw [if_neg (by simpa using hw)]
            · simp only [hk, if_true, beq_iff_eq, hr', if_false]
              rw [if_neg (by simpa using hw')]
      · exact .inl (by simp [hk])
  | punct p =>
    cases p with
    | openBrace => exact .inr (.inr (.inl ⟨rfl, rfl, rfl⟩))
    | closeBrace => exact .inr (.inr (.inr ⟨rfl, rfl⟩))
    | colon | equals => exact .inl ⟨rfl, rfl⟩
  | identifier _ | «attribute» _ => exact .inl ⟨rfl, rfl⟩

/-- A token moves compared scopes to compared scopes when what it reads around it agrees and the
accesses written before it keep the comparison where it opens a scope. -/
theorem Levels.move (h : Levels R s s') (hs : BareOnTop s) (t : Token) {la la' : Option Access}
    {prev prev' : Option Token} {rest rest' : List Token}
    (hcolon : (∃ k, t = .keyword k ∧ k.structural = true) →
      (rest.head? = some (.punct .colon) ↔ rest'.head? = some (.punct .colon)))
    (hconf : declaresConformance rest = declaresConformance rest')
    (hprev : t = .keyword .«while» →
      (prev = some (.punct .closeBrace) ↔ prev' = some (.punct .closeBrace)))
    (hpush : t.opensScope = true → PushOK R la la' s.memberLevel) :
    Levels R (s.move la prev rest t) (s'.move la' prev' rest' t) := by
  rcases h.similar.move_cases t hcolon hconf hprev with
    ⟨h₁, h₂⟩ | ⟨ho, f, f', hf, ha, ha', h₁, h₂⟩ | ⟨ho, h₁, h₂⟩ | ⟨h₁, h₂⟩
  · rw [h₁, h₂]
    exact h
  · rw [h₁, h₂]
    exact h.push hs hf (ha ▸ ha' ▸ hpush ho)
  · rw [h₁, h₂]
    exact h.openBrace (hpush ho)
  · rw [h₁, h₂]
    exact h.closeBrace

end Levels

/-! ## Along a line -/

/-- Every scope that tokens read from `s` open is opened at a scope where `P` holds; `la` is the
access written before them on their line and `prev` the token before. -/
def OpensWhere (P : Scope → Prop) : Scope → Option Access → Option Token → List Token → Prop
  | _, _, _, [] => True
  | s, la, prev, t :: rest =>
    (t.opensScope = true → P s) ∧
      OpensWhere P (s.move la prev rest t) (t.lineAccess la) (some t) rest

theorem opensWhere_true : ∀ (ts : List Token) (s : Scope) (la : Option Access)
    (prev : Option Token), OpensWhere (fun _ => True) s la prev ts
  | [], _, _, _ => trivial
  | _ :: ts, _, _, _ => ⟨fun _ => trivial, opensWhere_true ts _ _ _⟩

theorem OpensWhere.mono {P Q : Scope → Prop} (himp : ∀ u, P u → Q u) :
    ∀ {ts : List Token} {s : Scope} {la : Option Access} {prev : Option Token},
      OpensWhere P s la prev ts → OpensWhere Q s la prev ts
  | [], _, _, _, _ => trivial
  | _ :: _, _, _, _, ⟨h, hrest⟩ => ⟨fun ht => himp _ (h ht), OpensWhere.mono himp hrest⟩

/-- A condition that holds of every scope holds wherever a line opens one. -/
theorem opensWhere_of_forall {P : Scope → Prop} (h : ∀ u, P u) (ts : List Token) (s : Scope)
    (la : Option Access) (prev : Option Token) : OpensWhere P s la prev ts :=
  (opensWhere_true ts s la prev).mono fun u _ => h u

section Line

variable {R : Access → Access → Prop} {P : Scope → Prop}

/-- After an access modifier both lines have written the same access, which keeps every reflexive
comparison; other tokens write none. -/
theorem pushOK_lineAccess (hrefl : ∀ x, R x x) {la la' : Option Access}
    (h : ∀ u, P u → PushOK R la la' u.memberLevel) (t : Token) :
    ∀ u, P u → PushOK R (t.lineAccess la) (t.lineAccess la') u.memberLevel := by
  intro u hu
  cases t with
  | keyword k =>
    cases hk : k.access? with
    | some a =>
      simp only [Token.lineAccess, hk]
      exact pushOK_same hrefl _ _
    | none =>
      simp only [Token.lineAccess, hk]
      exact h u hu
  | punct _ | identifier _ | «attribute» _ => exact h u hu

/-- The same tokens move compared scopes to compared scopes, from accesses that keep the
comparison wherever the tokens open a scope. -/
theorem Levels.addTokens (hrefl : ∀ x, R x x) :
    ∀ (ts : List Token) {s s' : Scope} {la la' : Option Access} {prev prev' : Option Token},
      Levels R s s' → BareOnTop s →
      (ts.head? = some (.keyword .«while») →
        (prev = some (.punct .closeBrace) ↔ prev' = some (.punct .closeBrace))) →
      OpensWhere P s la prev ts → (∀ u, P u → PushOK R la la' u.memberLevel) →
      Levels R (s.addTokens la prev ts) (s'.addTokens la' prev' ts)
  | [], _, _, _, _, _, _, h, _, _, _, _ => h
  | t :: ts, s, s', la, la', prev, prev', h, hs, hp, hw, hok => by
    rw [addTokens_cons, addTokens_cons]
    exact Levels.addTokens hrefl ts
      (h.move hs t (fun _ => Iff.rfl) rfl (fun hw => hp (by simp [hw])) fun ho => hok s (hw.1 ho))
      (hs.move la prev ts t) (fun _ => Iff.rfl) hw.2 (pushOK_lineAccess hrefl hok t)

/-- An inert token or none, read first, moves nothing: the rest is read with the access it wrote
and after it. -/
theorem addTokens_inert_option {o : Option Token} (ho : ∀ t ∈ o, t.inert = true) (u : Scope)
    (la : Option Access) (prev : Option Token) (ys : List Token) :
    u.addTokens la prev (o.toList ++ ys) =
      u.addTokens (o.toList.foldl Token.lineAccess la) (o.or prev) ys := by
  cases o with
  | none => rfl
  | some X =>
    simp only [Option.toList_some, List.singleton_append, List.foldl_cons, List.foldl_nil,
      Option.some_or]
    rw [addTokens_cons, move_inert (ho X rfl)]

theorem OpensWhere.of_inert_option {o : Option Token} (ho : ∀ t ∈ o, t.inert = true)
    {s : Scope} {la : Option Access} {prev : Option Token} {ys : List Token}
    (hw : OpensWhere P s la prev (o.toList ++ ys)) :
    OpensWhere P s (o.toList.foldl Token.lineAccess la) (o.or prev) ys := by
  cases o with
  | none => exact hw
  | some X =>
    have := hw.2
    rwa [move_inert (ho X rfl)] at this

theorem declaresConformance_inert_option {o : Option Token} (ho : ∀ t ∈ o, t.inert = true)
    (xs ys : List Token) :
    declaresConformance (xs ++ o.toList ++ ys) = declaresConformance (xs ++ ys) := by
  cases o with
  | none => simp
  | some X =>
    simp only [Option.toList_some, List.append_assoc, List.singleton_append]
    exact declaresConformance_insert (ho X rfl) xs ys

/-- Two lines that write an inert token or nothing at one place agree on what is read there, when
no inert token is read so and, where one of them writes nothing, the place itself is not. -/
theorem iff_of_written_inert {Q : Option Token → Prop} {o o' : Option Token}
    (hin : ∀ t ∈ o, t.inert = true) (hin' : ∀ t ∈ o', t.inert = true)
    (hinert : ∀ t, t.inert = true → ¬ Q (some t)) (hnone : (o = none ∨ o' = none) → ¬ Q none) :
    Q o ↔ Q o' := by
  cases o with
  | none =>
    cases o' with
    | none => exact Iff.rfl
    | some t' => exact iff_of_false (hnone (.inl rfl)) (hinert t' (hin' t' rfl))
  | some t =>
    cases o' with
    | none => exact iff_of_false (hinert t (hin t rfl)) (hnone (.inr rfl))
    | some t' => exact iff_of_false (hinert t (hin t rfl)) (hinert t' (hin' t' rfl))

/-- Two lines that differ in one inert token, written, removed or replaced at a place where the
scope does not read two neighbours together, move compared scopes to compared scopes when the
accesses written after that place keep the comparison wherever the line opens a scope. -/
theorem Levels.addTokens_edit (hrefl : ∀ x, R x x) {o o' : Option Token}
    (hin : ∀ t ∈ o, t.inert = true) (hin' : ∀ t ∈ o', t.inert = true) :
    ∀ (xs ys : List Token) {s s' : Scope} {la : Option Access}
      {prev : Option Token}, Levels R s s' → BareOnTop s →
      ((o = none ∨ o' = none) → ∀ a b, xs.getLast?.or prev = some a → ys.head? = some b →
        a.readTogether b = false) →
      OpensWhere P s la prev (xs ++ o.toList ++ ys) →
      (∀ u, P u → PushOK R (o.toList.foldl Token.lineAccess (xs.foldl Token.lineAccess la))
        (o'.toList.foldl Token.lineAccess (xs.foldl Token.lineAccess la)) u.memberLevel) →
      Levels R (s.addTokens la prev (xs ++ o.toList ++ ys))
        (s'.addTokens la prev (xs ++ o'.toList ++ ys))
  | [], ys, s, s', la, prev, h, hs, hapart, hw, hok => by
    simp only [List.nil_append] at hw ⊢
    rw [addTokens_inert_option hin, addTokens_inert_option hin']
    refine Levels.addTokens hrefl ys h hs (fun hwh => ?_) (hw.of_inert_option hin) hok
    -- `while` after the edited place sees `}` before it on both lines or on neither
    refine iff_of_written_inert (Q := fun o => o.or prev = some (.punct .closeBrace)) hin hin'
      (fun t ht => by simpa using Token.ne_closeBrace_of_inert ht) fun hn hp => ?_
    exact absurd (hapart hn _ _ (by simpa using hp) hwh) (by decide)
  | x :: xs, ys, s, s', la, prev, h, hs, hapart, hw, hok => by
    simp only [List.cons_append] at hw ⊢
    rw [addTokens_cons, addTokens_cons]
    -- the token before the edited place sees a colon after it on both lines or on neither
    have hcolon : (∃ k, x = .keyword k ∧ k.structural = true) →
        ((xs ++ o.toList ++ ys).head? = some (.punct .colon) ↔
          (xs ++ o'.toList ++ ys).head? = some (.punct .colon)) := by
      rintro ⟨k, rfl, hk⟩
      cases xs with
      | cons y xs => exact Iff.rfl
      | nil =>
        refine iff_of_written_inert (Q := fun o => (o.toList ++ ys).head? = some (.punct .colon))
          hin hin' (fun t ht => by simpa using Token.ne_colon_of_inert ht) fun hn hc => ?_
        have := hapart hn (.keyword k) _ (by simp) (by simpa using hc)
        simp [Token.readTogether, hk] at this
    refine Levels.addTokens_edit hrefl hin hin' xs ys
      (h.move hs x hcolon ((declaresConformance_inert_option hin xs ys).trans
        (declaresConformance_inert_option hin' xs ys).symm) (fun _ => Iff.rfl)
        fun ho => pushOK_same hrefl la _)
      (hs.move la prev _ x) (fun hn a b ha hb => hapart hn a b ?_ hb) hw.2 hok
    cases xs with
    | nil => simpa using ha
    | cons y xs =>
      rw [List.getLast?_eq_some_getLast (List.cons_ne_nil y xs), Option.some_or] at ha
      rw [List.getLast?_cons_cons, List.getLast?_eq_some_getLast (List.cons_ne_nil y xs),
        Option.some_or]
      exact ha

end Line

end Scope

end SwiftAccess
