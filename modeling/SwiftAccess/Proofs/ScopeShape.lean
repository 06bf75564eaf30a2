import SwiftAccess.Proofs.ScopeGating

/-!
# Scopes alike but for access

The access modifier written on a line decides only the `access` of the frames the line pushes.
Whether a later line may carry a modifier reads the frames' keywords, bodies and conformances
alone (`Scope.allowsModifiers`, `Scope.inConformingExtension`). Two scopes are `Scope.Similar`
when they agree on all of their frames but the access.

A token moves the stack by what it is and by its two neighbours (`Scope.move`): a structural
keyword before a colon is an argument label, and `while` right after `}` ends a `repeat` loop
(`Token.readTogether`). Tokens that the stack reads only as neighbours are `Token.inert`: access
and setter modifiers, names other than `where`, attributes and `=`. So lines that differ only in
inert tokens at the same places fold similar scopes into similar scopes
(`Scope.similar_addTokens_alike`), and so do lines where one has one more inert token standing
between two tokens that the scope does not read together (`Scope.similar_addTokens_insert`). That
is what writing or removing a modifier does to a line, and it keeps the line's eligibility
(`eligible_eq_of_similar`).
-/

namespace SwiftAccess

/-- A frame without its access. -/
def Frame.shape (f : Frame) : Frame := { f with access := none }

/-- Tokens that the scope stack reads only as the neighbours of others: all but structural
keywords, braces, colons and the word `where`. -/
def Token.inert : Token → Bool
  | .keyword k => !k.structural
  | .punct p => p == .equals
  | .identifier w => w != "where"
  | .attribute _ => true

/-- Whether the scope reads two neighbouring tokens together: a structural keyword before a colon
is an argument label, and `while` right after `}` ends a `repeat` loop. -/
def Token.readTogether : Token → Token → Bool
  | .keyword k, .punct .colon => k.structural
  | .punct .closeBrace, .keyword .«while» => true
  | _, _ => false

/-- The access written on a line once a token is read. -/
def Token.lineAccess (la : Option Access) : Token → Option Access
  | .keyword k =>
    match k.access? with
    | some a => some a
    | none => la
  | _ => la

/-- Tokens alike for the scope: the same token, or two that it reads only as neighbours. -/
def Token.Alike (t t' : Token) : Prop := t = t' ∨ (t.inert = true ∧ t'.inert = true)

namespace Token

theorem ne_closeBrace_of_inert {t : Token} (h : t.inert = true) : t ≠ .punct .closeBrace := by
  rintro rfl
  exact absurd h (by decide)

theorem ne_colon_of_inert {t : Token} (h : t.inert = true) : t ≠ .punct .colon := by
  rintro rfl
  exact absurd h (by decide)

theorem Alike.refl (t : Token) : Alike t t := .inl rfl

theorem Alike.symm {t t' : Token} (h : Alike t t') : Alike t' t :=
  h.imp Eq.symm And.symm

/-- Tokens alike are both a given token that the scope reads, or neither is. -/
theorem Alike.eq_iff {t t' u : Token} (h : Alike t t') (hu : u.inert = false) :
    t = u ↔ t' = u := by
  rcases h with rfl | ⟨ht, ht'⟩
  · exact Iff.rfl
  · constructor <;> (rintro rfl; simp_all)

end Token

theorem declaresConformance_cons_inert {t : Token} (ht : t.inert = true) (rest : List Token) :
    declaresConformance (t :: rest) = declaresConformance rest := by
  cases t with
  | keyword _ | «attribute» _ => rfl
  | punct p =>
    cases p with
    | equals => rfl
    | openBrace | closeBrace | colon => exact absurd ht (by decide)
  | identifier w =>
    have hw : w ≠ "where" := by simpa [Token.inert] using ht
    simp [declaresConformance, hw]

theorem declaresConformance_cons_congr (t : Token) {rest rest' : List Token}
    (h : declaresConformance rest = declaresConformance rest') :
    declaresConformance (t :: rest) = declaresConformance (t :: rest') := by
  cases t with
  | keyword _ | «attribute» _ => exact h
  | punct p =>
    cases p with
    | equals | closeBrace => exact h
    | openBrace | colon => rfl
  | identifier w =>
    by_cases hw : w = "where"
    · subst hw
      rfl
    · simpa [declaresConformance, hw] using h

theorem declaresConformance_alike :
    ∀ {ts ts' : List Token}, List.Forall₂ Token.Alike ts ts' →
      declaresConformance ts = declaresConformance ts'
  | _, _, .nil => rfl
  | t :: _, _ :: _, .cons h hrest => by
    rcases h with rfl | ⟨ht, ht'⟩
    · exact declaresConformance_cons_congr t (declaresConformance_alike hrest)
    · rw [declaresConformance_cons_inert ht, declaresConformance_cons_inert ht',
        declaresConformance_alike hrest]

theorem declaresConformance_insert {X : Token} (hX : X.inert = true) :
    ∀ (xs ys : List Token), declaresConformance (xs ++ X :: ys) = declaresConformance (xs ++ ys)
  | [], ys => declaresConformance_cons_inert hX ys
  | x :: xs, ys => declaresConformance_cons_congr x (declaresConformance_insert hX xs ys)

namespace Scope

/-- Two scopes alike but for the access written on their frames. -/
def Similar (s s' : Scope) : Prop := s.frames.map Frame.shape = s'.frames.map Frame.shape

section Similar

variable {s s' s'' : Scope}

theorem Similar.refl (s : Scope) : Similar s s := rfl

theorem Similar.symm (h : Similar s s') : Similar s' s := Eq.symm h

theorem Similar.trans (h : Similar s s') (h' : Similar s' s'') : Similar s s'' := Eq.trans h h'

/-- Similar scopes answer alike every question that does not read a frame's access. -/
theorem Similar.any_eq (h : Similar s s') {p : Frame → Bool} (hp : ∀ f, p f.shape = p f) :
    s.frames.any p = s'.frames.any p := by
  have hmap : ∀ fs : List Frame, fs.any p = (fs.map Frame.shape).any p := by
    intro fs
    simp [List.any_map, Function.comp_def, hp]
  rw [hmap, h, ← hmap]

theorem Similar.declares (h : Similar s s') (k : Keyword) : s.declares k = s'.declares k :=
  h.any_eq fun _ => rfl

theorem Similar.allowsModifiers (h : Similar s s') : s.allowsModifiers = s'.allowsModifiers := by
  simp only [Scope.allowsModifiers, h.any_eq (p := fun f => (f.keyword.map Keyword.localScope).getD
    false) fun _ => rfl, h.any_eq (p := Frame.isPropertyBody) fun _ => rfl]

theorem Similar.inConformingExtension (h : Similar s s') :
    s.inConformingExtension = s'.inConformingExtension :=
  h.any_eq fun _ => rfl

theorem similar_cons {g : Frame} {rest fs' : List Frame}
    (h : (g :: rest).map Frame.shape = fs'.map Frame.shape) :
    ∃ g' rest', fs' = g' :: rest' ∧ g.shape = g'.shape ∧
      rest.map Frame.shape = rest'.map Frame.shape := by
  cases fs' with
  | nil => cases h
  | cons g' rest' =>
    simp only [List.map_cons, List.cons.injEq] at h
    exact ⟨g', rest', rfl, h⟩

theorem Frame.isBareProperty_shape (f : Frame) : f.shape.isBareProperty = f.isBareProperty := rfl

/-- Pushing frames alike but for access keeps scopes similar. -/
theorem Similar.push (h : Similar s s') {f f' : Frame} (hf : f.shape = f'.shape) :
    Similar (s.push f) (s'.push f') := by
  unfold Similar Scope.push at *
  cases hs : s.frames with
  | nil =>
    rw [hs] at h
    cases hs' : s'.frames with
    | nil => simp [hf]
    | cons => rw [hs'] at h; cases h
  | cons g rest =>
    rw [hs] at h
    obtain ⟨g', rest', hs', hg, hrest⟩ := similar_cons h
    have hbare : g.isBareProperty = g'.isBareProperty := by
      rw [← Frame.isBareProperty_shape, hg, Frame.isBareProperty_shape]
    rw [hs']
    dsimp only
    rw [← hbare]
    split <;> simp [hf, hg, hrest]

/-- An opening brace keeps scopes similar, whatever access the two lines have written. -/
theorem Similar.openBrace (h : Similar s s') (a a' : Option Access) :
    Similar (s.openBrace a) (s'.openBrace a') := by
  unfold Similar Scope.openBrace at *
  cases hs : s.frames with
  | nil =>
    rw [hs] at h
    cases hs' : s'.frames with
    | nil => rfl
    | cons => rw [hs'] at h; cases h
  | cons g rest =>
    rw [hs] at h
    obtain ⟨g', rest', hs', hg, hrest⟩ := similar_cons h
    have hbraced : g.braced = g'.braced := by
      have := congrArg Frame.braced hg
      exact this
    rw [hs']
    dsimp only
    rw [← hbraced]
    split
    · simp only [List.map_cons, hg, hrest]
      rfl
    · simp only [List.map_cons, hrest, List.cons.injEq, and_true]
      exact congrArg (fun f : Frame => { f with braced := true }) hg

theorem closeFrames_similar :
    ∀ {fs fs' : List Frame}, fs.map Frame.shape = fs'.map Frame.shape →
      (closeFrames fs).map Frame.shape = (closeFrames fs').map Frame.shape
  | [], [], _ => rfl
  | g :: rest, fs', h => by
    obtain ⟨g', rest', rfl, hg, hrest⟩ := similar_cons h
    have hbraced : g.braced = g'.braced := by
      have := congrArg Frame.braced hg
      exact this
    simp only [closeFrames, hbraced]
    split
    · exact hrest
    · exact closeFrames_similar hrest

theorem Similar.closeBrace (h : Similar s s') : Similar s.closeBrace s'.closeBrace :=
  closeFrames_similar h

end Similar

/-- What one token does to the stack, given the access written before it on its line, the token
before it and the tokens after it. -/
def move (s : Scope) (la : Option Access) (prev : Option Token) (rest : List Token) :
    Token → Scope
  | .keyword k =>
    match k.access? with
    | some _ => s
    | none =>
      if k.structural && !s.declares .protocol then
        if rest.head? == some (.punct .colon) then s
        else if k == .«while» && prev == some (.punct .closeBrace) then s
        else s.push { access := la, keyword := some k, braced := false,
                      conformance := k == .extension && declaresConformance rest }
      else s
  | .punct .openBrace => s.openBrace la
  | .punct .closeBrace => s.closeBrace
  | _ => s

/-- `addTokens` is one move per token, the line's access and the token before carried along. -/
theorem addTokens_cons (s : Scope) (la : Option Access) (prev : Option Token) (t : Token)
    (rest : List Token) :
    s.addTokens la prev (t :: rest) =
      (s.move la prev rest t).addTokens (t.lineAccess la) (some t) rest := by
  conv => lhs; unfold addTokens
  cases t with
  | keyword k =>
    simp only [move, Token.lineAccess]
    rcases Option.eq_none_or_eq_some k.access? with ha | ⟨a, ha⟩
    · simp only [ha]
      split_ifs <;> rfl
    · simp only [ha]
  | punct p => cases p <;> rfl
  | identifier _ | «attribute» _ => rfl

theorem move_inert {t : Token} (ht : t.inert = true) (s : Scope) (la : Option Access)
    (prev : Option Token) (rest : List Token) : s.move la prev rest t = s := by
  cases t with
  | keyword k =>
    simp only [Token.inert, Bool.not_eq_true'] at ht
    simp only [move, ht, Bool.false_and]
    split <;> rfl
  | punct p =>
    -- of the punctuation only `=` is inert, and it leaves the stack alone
    obtain rfl : p = .equals := by simpa [Token.inert] using ht
    rfl
  | identifier _ | «attribute» _ => rfl

/-- A token moves similar scopes to similar scopes when what it reads around it agrees: whether a
colon follows a structural keyword, whether an extension declares a conformance, and whether `}`
stands before `while`. -/
theorem Similar.move {s s' : Scope} (h : Similar s s') (t : Token) {la la' : Option Access}
    {prev prev' : Option Token} {rest rest' : List Token}
    (hcolon : (∃ k, t = .keyword k ∧ k.structural = true) →
      (rest.head? = some (.punct .colon) ↔ rest'.head? = some (.punct .colon)))
    (hconf : declaresConformance rest = declaresConformance rest')
    (hprev : t = .keyword .«while» →
      (prev = some (.punct .closeBrace) ↔ prev' = some (.punct .closeBrace))) :
    Similar (s.move la prev rest t) (s'.move la' prev' rest' t) := by
  cases t with
  | keyword k =>
    simp only [Scope.move]
    cases k.access? with
    | some _ => exact h
    | none =>
      simp only
      rw [h.declares]
      by_cases hk : k.structural && !s'.declares .protocol
      · have hs : k.structural = true := by simp_all
        have hc := hcolon ⟨k, rfl, hs⟩
        by_cases hw : k == .«while»
        · have hp := hprev (by simpa using hw)
          simp only [hk, if_true, hw, Bool.true_and, beq_iff_eq]
          by_cases hr : rest.head? = some (.punct .colon)
          · simp [hr, hc.1 hr, h]
          · have hr' : ¬rest'.head? = some (.punct .colon) := fun h' => hr (hc.2 h')
            by_cases hpv : prev = some (.punct .closeBrace)
            · simp [hr, hr', hpv, hp.1 hpv, h]
            · have hpv' : ¬prev' = some (.punct .closeBrace) := fun h' => hpv (hp.2 h')
              simp only [hr, hr', hpv, hpv', if_false]
              exact h.push (by simp [Frame.shape, hconf])
        · simp only [hk, if_true, hw, Bool.false_and]
          by_cases hr : rest.head? = some (.punct .colon)
          · simp [hr, hc.1 hr, h]
          · have hr' : ¬rest'.head? = some (.punct .colon) := fun h' => hr (hc.2 h')
            simp only [beq_iff_eq, hr, hr', if_false]
            exact h.push (by simp [Frame.shape, hconf])
      · simp only [hk]
        exact h
  | punct p =>
    cases p with
    | openBrace => exact h.openBrace la la'
    | closeBrace => exact h.closeBrace
    | colon | equals => exact h
  | identifier _ | «attribute» _ => exact h

/-- Lines alike token by token fold similar scopes into similar scopes, whatever access they have
written before, as long as a leading `while` sees `}` before it on both or on neither. -/
theorem similar_addTokens_alike :
    ∀ {ts ts' : List Token}, List.Forall₂ Token.Alike ts ts' →
      ∀ {s s' : Scope} {la la' : Option Access} {prev prev' : Option Token}, Similar s s' →
        (ts.head? = some (.keyword .«while») →
          (prev = some (.punct .closeBrace) ↔ prev' = some (.punct .closeBrace))) →
        Similar (s.addTokens la prev ts) (s'.addTokens la' prev' ts')
  | _, _, .nil, _, _, _, _, _, _, h, _ => h
  | t :: ts, t' :: ts', .cons ht hrest, s, s', la, la', prev, prev', h, hp => by
    rw [addTokens_cons, addTokens_cons]
    refine similar_addTokens_alike hrest ?_ fun hw => ?_
    · rcases ht with rfl | ⟨hi, hi'⟩
      · refine h.move t (fun _ => ?_) (declaresConformance_alike hrest) (fun hw => hp (by simp [hw]))
        cases hrest with
        | nil => exact Iff.rfl
        | cons hu _ => exact Option.some_inj.trans ((hu.eq_iff rfl).trans Option.some_inj.symm)
      · rw [move_inert hi, move_inert hi']
        exact h
    · have hw' : ts.head? ≠ Option.none := by rw [hw]; exact Option.some_ne_none _
      simp only [Option.some.injEq]
      exact ht.eq_iff rfl

/-- A line with one more inert token reads like the line without it, when the token stands
between two tokens that the scope does not read together. -/
theorem similar_addTokens_insert {X : Token} (hX : X.inert = true) :
    ∀ (xs : List Token) {ys : List Token} {s s' : Scope} {la la' : Option Access}
      {prev : Option Token}, Similar s s' →
      (∀ a b, (xs.getLast?.or prev) = some a → ys.head? = some b → a.readTogether b = false) →
      Similar (s.addTokens la prev (xs ++ X :: ys)) (s'.addTokens la' prev (xs ++ ys))
  | [], ys, s, s', la, la', prev, h, hsplit => by
    rw [List.nil_append, List.nil_append, addTokens_cons, move_inert hX]
    refine similar_addTokens_alike (List.forall₂_same.2 fun t _ => Token.Alike.refl t) h
      fun hw => ?_
    have hnot : prev ≠ some (.punct .closeBrace) := by
      intro hp
      have := hsplit _ _ (by simpa using hp) hw
      exact absurd this (by decide)
    simp only [Option.some.injEq, hnot, iff_false]
    exact Token.ne_closeBrace_of_inert hX
  | x :: xs, ys, s, s', la, la', prev, h, hsplit => by
    simp only [List.cons_append]
    rw [addTokens_cons, addTokens_cons]
    refine similar_addTokens_insert hX xs (h.move x ?_ (declaresConformance_insert hX xs ys)
      fun _ => Iff.rfl) fun a b ha hb => hsplit a b ?_ hb
    · rintro ⟨k, rfl, hk⟩
      cases xs with
      | cons y xs => exact Iff.rfl
      | nil =>
        simp only [List.nil_append, List.head?_cons, Option.some.injEq]
        constructor
        · intro hc
          exact absurd hc (Token.ne_colon_of_inert hX)
        · intro hc
          have := hsplit (.keyword k) _ (by simp) hc
          simp [Token.readTogether, hk] at this
    · cases xs with
      | nil => simpa using ha
      | cons y xs =>
        rw [List.getLast?_eq_some_getLast (List.cons_ne_nil y xs), Option.some_or] at ha
        rw [List.getLast?_cons_cons, List.getLast?_eq_some_getLast (List.cons_ne_nil y xs),
          Option.some_or]
        exact ha

/-- Two lines that fold similar scopes into similar scopes. -/
def ReadAlike (ts ts' : List Token) : Prop :=
  ∀ s s' : Scope, Similar s s' → Similar (s.addLine ts) (s'.addLine ts')

theorem ReadAlike.refl (ts : List Token) : ReadAlike ts ts := fun _ _ h =>
  similar_addTokens_alike (List.forall₂_same.2 fun t _ => Token.Alike.refl t) h fun _ => Iff.rfl

theorem ReadAlike.symm {ts ts' : List Token} (h : ReadAlike ts ts') : ReadAlike ts' ts :=
  fun s s' hs => (h s' s hs.symm).symm

theorem ReadAlike.trans {ts ts' ts'' : List Token} (h : ReadAlike ts ts') (h' : ReadAlike ts' ts'') :
    ReadAlike ts ts'' :=
  fun s s' hs => (h s s' hs).trans (h' s' s' (Similar.refl s'))

/-- A line with one more inert token, between two tokens that the scope does not read together,
reads like the line without it. -/
theorem ReadAlike.insert {X : Token} (hX : X.inert = true) (xs ys : List Token)
    (hsplit : ∀ a b, xs.getLast? = some a → ys.head? = some b → a.readTogether b = false) :
    ReadAlike (xs ++ X :: ys) (xs ++ ys) :=
  fun _ _ hs => similar_addTokens_insert hX xs hs fun a b ha hb =>
    hsplit a b (by cases hxs : xs.getLast? <;> simp_all) hb

/-- Lines read alike one by one leave similar scopes. -/
theorem similar_foldl_addLine :
    ∀ {tss tss' : List (List Token)}, List.Forall₂ ReadAlike tss tss' →
      ∀ {s s' : Scope}, Similar s s' → Similar (tss.foldl addLine s) (tss'.foldl addLine s')
  | _, _, .nil, _, _, h => h
  | _, _, .cons hl hrest, s, s', h => similar_foldl_addLine hrest (hl s s' h)

end Scope

theorem similar_scopeAfter {tss tss' : List (List Token)}
    (h : List.Forall₂ Scope.ReadAlike tss tss') (i : Nat) :
    (scopeAfter {} tss i).Similar (scopeAfter {} tss' i) :=
  Scope.similar_foldl_addLine (List.forall₂_take i h) (Scope.Similar.refl _)

/-! ## Eligibility -/

theorem Token.isKeyword_extension_of_inert {t : Token} (ht : t.inert = true) :
    t.isKeyword .extension = false := by
  cases t with
  | keyword k =>
    by_cases hk : k = .extension
    · subst hk
      exact absurd ht (by decide)
    · simp [Token.isKeyword, Token.keyword?, hk]
  | punct _ | identifier _ | «attribute» _ => rfl

theorem isConformingExtension_cons_inert {X : Token} (hX : X.inert = true) (ys : List Token) :
    isConformingExtension (X :: ys) = isConformingExtension ys := by
  unfold isConformingExtension
  rw [List.dropWhile_cons_of_pos (by simp [Token.isKeyword_extension_of_inert hX])]

theorem isConformingExtension_cons_congr (t : Token) {ys ys' : List Token}
    (h : isConformingExtension ys = isConformingExtension ys')
    (hd : declaresConformance ys = declaresConformance ys') :
    isConformingExtension (t :: ys) = isConformingExtension (t :: ys') := by
  unfold isConformingExtension at *
  by_cases ht : t.isKeyword .extension = true
  · rw [List.dropWhile_cons_of_neg (by simp [ht]), List.dropWhile_cons_of_neg (by simp [ht])]
    exact hd
  · rw [List.dropWhile_cons_of_pos (by simpa using ht),
      List.dropWhile_cons_of_pos (by simpa using ht)]
    exact h

theorem isConformingExtension_insert {X : Token} (hX : X.inert = true) :
    ∀ (xs ys : List Token),
      isConformingExtension (xs ++ X :: ys) = isConformingExtension (xs ++ ys)
  | [], ys => isConformingExtension_cons_inert hX ys
  | x :: xs, ys => isConformingExtension_cons_congr x (isConformingExtension_insert hX xs ys)
      (declaresConformance_insert hX xs ys)

theorem isConformingExtension_alike :
    ∀ {ts ts' : List Token}, List.Forall₂ Token.Alike ts ts' →
      isConformingExtension ts = isConformingExtension ts'
  | _, _, .nil => rfl
  | t :: _, _ :: _, .cons h hrest => by
    rcases h with rfl | ⟨ht, ht'⟩
    · exact isConformingExtension_cons_congr t (isConformingExtension_alike hrest)
        (declaresConformance_alike hrest)
    · rw [isConformingExtension_cons_inert ht, isConformingExtension_cons_inert ht',
        isConformingExtension_alike hrest]

/-- A line's eligibility reads the shape of the scope before it, its first token, and whether it
opens a conforming extension. -/
theorem eligible_eq_of_similar {s s' : Scope} {ts ts' : List Token} (h : s.Similar s')
    (hhead : (ts.head?.map Token.startsDeclaration).getD true =
      (ts'.head?.map Token.startsDeclaration).getD true)
    (hconf : isConformingExtension ts = isConformingExtension ts') :
    (classify s ts).1.eligible = (classify s' ts').1.eligible := by
  simp only [classify, h.allowsModifiers, h.inConformingExtension, hhead, hconf]

end SwiftAccess
