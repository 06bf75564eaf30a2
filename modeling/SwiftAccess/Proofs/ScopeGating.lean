import SwiftAccess.Proofs.ScopeRun
import SwiftAccess.Proofs.RewriteRelex

/-!
# No modifier inside an open body

A line inside the body of a function, initialiser, subscript, loop, statement block, protocol or
property cannot carry an access modifier, nor can a line inside an extension that declares a
conformance. The rewriter learns this from its scope stack, folded over every line above, so the
statement is about the whole stream of tokens: when one of those keywords is followed by a `{`,
with no other brace or declaring keyword between them, and that `{` is still unmatched when line
`i` starts, then line `i` is not eligible, gets no new text for any change and any selection, and
the rewritten buffer keeps it (`ineligible_in_open_body`).

Matching is the usual one for brackets (`Brackets.unmatched`): a `}` closes the innermost open `{`,
and closes nothing when none is open. The proof follows the stack through three stages: the keyword
pushes its declaration (or a protocol around it already blocks modifiers), the `{` opens it, and
`Scope.Steps.keeps` keeps it on the stack while its `{` is unmatched.
-/

namespace SwiftAccess

namespace Brackets

/-- The positions of the `{` tokens still open after a stream, innermost first. Positions count
from `start`, and `pending` holds the braces open before the stream. A `}` matches the innermost
open `{`; with none open it matches nothing. -/
def openAfter (start : Nat) (pending : List Nat) : List Token → List Nat
  | [] => pending
  | t :: ts =>
    if t = .punct .openBrace then openAfter (start + 1) (start :: pending) ts
    else if t = .punct .closeBrace then openAfter (start + 1) pending.tail ts
    else openAfter (start + 1) pending ts

/-- The positions of the `{` tokens of a stream that no `}` of it matches. -/
def unmatched (ts : List Token) : List Nat := openAfter 0 [] ts

/-- The number of opening braces of a stream. -/
def opens (ts : List Token) : Nat := ts.count (.punct .openBrace)

/-- The number of closing braces of a stream. -/
def closes (ts : List Token) : Nat := ts.count (.punct .closeBrace)

theorem openAfter_append (start : Nat) (pending : List Nat) :
    ∀ xs ys : List Token,
      openAfter start pending (xs ++ ys) = openAfter (start + xs.length) (openAfter start pending xs) ys
  | [], _ => rfl
  | x :: xs, ys => by
    simp only [List.cons_append, openAfter, List.length_cons]
    split
    · rw [openAfter_append]; congr 1; omega
    · split
      · rw [openAfter_append]; congr 1; omega
      · rw [openAfter_append]; congr 1; omega

/-- Every brace still open was opened before the stream ended. -/
theorem lt_of_mem_openAfter :
    ∀ {start : Nat} {pending : List Nat} (ts : List Token), (∀ x ∈ pending, x < start) →
      ∀ x ∈ openAfter start pending ts, x < start + ts.length
  | _, _, [], h, x, hx => by simpa using h x hx
  | start, pending, t :: ts, h, x, hx => by
    simp only [openAfter] at hx
    have step : ∀ p' : List Nat, (∀ y ∈ p', y < start + 1) →
        x ∈ openAfter (start + 1) p' ts → x < start + (t :: ts).length := by
      intro p' hp' hx'
      have := lt_of_mem_openAfter ts hp' x hx'
      simp only [List.length_cons]; omega
    split at hx
    · exact step _ (by intro y hy; rcases List.mem_cons.1 hy with rfl | hy <;> grind) hx
    · split at hx
      · exact step _ (fun y hy => by have := h y (List.mem_of_mem_tail hy); omega) hx
      · exact step _ (fun y hy => by have := h y hy; omega) hx

/-- A brace that was closed, or was never opened, is never open again: later positions are new. -/
theorem not_mem_openAfter :
    ∀ {start : Nat} {pending : List Nat} {p : Nat} (ts : List Token), p ∉ pending → p < start →
      p ∉ openAfter start pending ts
  | _, _, _, [], h, _ => h
  | start, pending, p, t :: ts, h, hp => by
    simp only [openAfter]
    split
    · exact not_mem_openAfter ts (by simp only [List.mem_cons, not_or]; exact ⟨by omega, h⟩)
        (by omega)
    · split
      · exact not_mem_openAfter ts (fun hm => h (List.mem_of_mem_tail hm)) (by omega)
      · exact not_mem_openAfter ts h (by omega)

/-- While the brace at `p` stays open, no prefix of the stream closes more braces than it opens,
beyond those opened after `p` and still open. -/
theorem closes_le_of_mem_openAfter :
    ∀ {start p : Nat} {above below : List Nat} (ts : List Token),
      (∀ x ∈ above, p < x) → (∀ x ∈ below, x < p) → p < start →
      p ∈ openAfter start (above ++ p :: below) ts →
      ∀ n, closes (ts.take n) ≤ opens (ts.take n) + above.length
  | _, _, _, _, [], _, _, _, _, n => by simp [closes, opens]
  | start, p, above, below, t :: ts, ha, hb, hp, hm, n => by
    cases n with
    | zero => simp [closes, opens]
    | succ n =>
      simp only [openAfter] at hm
      simp only [List.take_succ_cons, closes, opens, List.count_cons] at *
      split at hm
      · next ht =>
        subst ht
        have hm' : p ∈ openAfter (start + 1) ((start :: above) ++ p :: below) ts := hm
        have := closes_le_of_mem_openAfter ts
          (by intro x hx; rcases List.mem_cons.1 hx with rfl | hx <;> grind) hb (by omega) hm' n
        simp [closes, opens] at this ⊢
        omega
      · next ho =>
        split at hm
        · next hc =>
          subst hc
          cases above with
          | nil =>
            exact absurd hm (not_mem_openAfter ts (fun h => by have := hb p h; omega) (by omega))
          | cons x above =>
            have := closes_le_of_mem_openAfter ts (fun y hy => ha y (List.mem_cons_of_mem _ hy))
              hb (by omega) hm n
            simp [closes, opens] at this ⊢
            omega
        · next hc =>
          have := closes_le_of_mem_openAfter ts ha hb (by omega) hm n
          simp [closes, opens, ho, hc] at this ⊢
          omega

/-- A `{` that is unmatched in a stream is not outrun by `}` in any stretch that follows it. -/
theorem closes_le_of_unmatched {xs z : List Token}
    (h : xs.length ∈ unmatched (xs ++ .punct .openBrace :: z)) (n : Nat) :
    closes (z.take n) ≤ opens (z.take n) := by
  simp only [unmatched, openAfter_append, openAfter, if_true, Nat.zero_add] at h
  -- the braces open before this one were all opened at earlier positions
  have hbelow : ∀ x ∈ openAfter 0 [] xs, x < xs.length := fun x hx => by
    simpa using lt_of_mem_openAfter xs (by simp) x hx
  have h' : xs.length ∈ openAfter (xs.length + 1) ([] ++ xs.length :: openAfter 0 [] xs) z := h
  have := closes_le_of_mem_openAfter z (by simp) hbelow (by omega) h' n
  simpa using this

end Brackets

namespace Scope

theorem addTokens_cons_exists (s : Scope) (la : Option Access) (prev : Option Token) (t : Token)
    (rest : List Token) :
    ∃ (s' : Scope) (la' : Option Access),
      s.addTokens la prev (t :: rest) = s'.addTokens la' (some t) rest := by
  conv => enter [1, s', 1, la', 1]; unfold addTokens
  split
  · split
    · exact ⟨_, _, rfl⟩
    · split
      · split
        · exact ⟨_, _, rfl⟩
        · split <;> exact ⟨_, _, rfl⟩
      · exact ⟨_, _, rfl⟩
  all_goals exact ⟨_, _, rfl⟩

/-- Whatever a line's first tokens do, the rest of it is read from some scope and some line
access, with the last of those tokens before it. -/
theorem addTokens_append_exists :
    ∀ (xs ys : List Token) (s : Scope) (la : Option Access) (prev : Option Token),
      ∃ (s' : Scope) (la' : Option Access),
        s.addTokens la prev (xs ++ ys) = s'.addTokens la' (xs.getLast?.or prev) ys
  | [], ys, s, la, prev => ⟨s, la, rfl⟩
  | x :: xs, ys, s, la, prev => by
    obtain ⟨s₁, la₁, h₁⟩ := addTokens_cons_exists s la prev x (xs ++ ys)
    obtain ⟨s₂, la₂, h₂⟩ := addTokens_append_exists xs ys s₁ la₁ (some x)
    refine ⟨s₂, la₂, ?_⟩
    rw [List.cons_append, h₁, h₂]
    cases xs <;> simp [List.getLast?_cons]

/-- A declaring keyword that is not an argument label and does not end a `repeat` loop pushes its
declaration, outside a protocol. -/
theorem addTokens_declaring {s : Scope} {la : Option Access} {prev : Option Token} {k : Keyword}
    {post : List Token} (hacc : k.access? = none) (hk : k.structural = true)
    (hp : s.declares .protocol = false) (hcolon : post.head? ≠ some (.punct .colon))
    (hwhile : k = .«while» → prev ≠ some (.punct .closeBrace)) :
    s.addTokens la prev (.keyword k :: post) =
      (s.push { access := la, keyword := some k, braced := false,
                conformance := k == .extension && declaresConformance post }).addTokens la
        (some (.keyword k)) post := by
  have h1 : (post.head? == some (.punct .colon)) = false := by simpa using hcolon
  have h2 : (k == .«while» && prev == some (.punct .closeBrace)) = false := by
    by_cases hw : k = .«while»
    · simpa [hw] using hwhile hw
    · simp [hw]
  simp only [addTokens, hacc, hk, hp, Bool.not_false, Bool.and_self, if_true, h1, h2,
    Bool.false_eq_true, if_false]

/-- Inside a protocol no declaration is pushed. -/
theorem addTokens_in_protocol {s : Scope} {la : Option Access} {prev : Option Token} {k : Keyword}
    {post : List Token} (hacc : k.access? = none) (hp : s.declares .protocol = true) :
    s.addTokens la prev (.keyword k :: post) = s.addTokens la (some (.keyword k)) post := by
  simp only [addTokens, hacc, hp, Bool.not_true, Bool.and_false, Bool.false_eq_true, if_false]

theorem allowsModifiers_eq_false {s : Scope} {f : Frame} (hf : f ∈ s.frames)
    (h : (f.keyword.map Keyword.localScope).getD false = true ∨ f.isPropertyBody = true) :
    s.allowsModifiers = false := by
  simp only [allowsModifiers, Bool.and_eq_false_iff, Bool.not_eq_false', List.any_eq_true]
  rcases h with h | h
  · exact .inl ⟨f, hf, h⟩
  · exact .inr ⟨f, hf, h⟩

theorem inConformingExtension_eq_true {s : Scope} {f : Frame} (hf : f ∈ s.frames)
    (h : f.conformance = true) : s.inConformingExtension = true :=
  List.any_eq_true.2 ⟨f, hf, h⟩

end Scope

/-- The keywords whose open body refuses modifiers: the local scopes and protocols, and the
properties. -/
def Keyword.closesBody (k : Keyword) : Bool := k.localScope || k == .var || k == .«let»

theorem Keyword.structural_of_closesBody {k : Keyword} (h : k.closesBody = true) :
    k.structural = true ∧ k.access? = none := by
  cases k <;> simp_all [Keyword.closesBody, Keyword.localScope, Keyword.structural,
    Keyword.access?]

/-- A frame that makes every line inside it ineligible: a local scope or protocol, a property
body, or a conforming extension. -/
def Frame.refusesMembers (f : Frame) : Bool :=
  (f.keyword.map Keyword.localScope).getD false || f.isPropertyBody || f.conformance

theorem Scope.ineligible_of_mem {s : Scope} {f : Frame} (hf : f ∈ s.frames)
    (h : f.refusesMembers = true) (ts : List Token) : (classify s ts).1.eligible = false := by
  simp only [Frame.refusesMembers, Bool.or_eq_true] at h
  simp only [classify, Bool.and_eq_false_iff]
  rcases h with (h | h) | h
  · exact .inl (.inl (.inl (Scope.allowsModifiers_eq_false hf (.inl h))))
  · exact .inl (.inl (.inl (Scope.allowsModifiers_eq_false hf (.inr h))))
  · exact .inl (.inr (by simp [Scope.inConformingExtension_eq_true hf h]))

/-- Opening a frame's body keeps it refusing members. -/
theorem Frame.refusesMembers_open {f : Frame} (h : f.refusesMembers = true) :
    { f with braced := true }.refusesMembers = true := by
  simp only [refusesMembers, isPropertyBody, Bool.or_eq_true, Bool.and_eq_true, and_true] at h ⊢
  rcases h with (h | h) | h
  · exact .inl (.inl h)
  · exact .inl (.inr h.1)
  · exact .inr h

/-- The frame a declaring keyword opens: the keyword's declaration once its `{` has been read. -/
theorem Frame.refusesMembers_of_keyword {f : Frame} {k : Keyword} {post : List Token}
    (hkw : f.keyword = some k) (hb : f.braced = true)
    (hconf : f.conformance = (k == .extension && declaresConformance post))
    (hk : k.closesBody = true ∨ (k = .extension ∧ declaresConformance post = true)) :
    f.refusesMembers = true := by
  rcases hk with hk | ⟨rfl, hc⟩
  · simp only [Keyword.closesBody, Bool.or_eq_true, beq_iff_eq] at hk
    rcases hk with (hk | rfl) | rfl
    · simp [refusesMembers, hkw, hk]
    · simp [refusesMembers, hkw, isPropertyBody, isProperty, hb]
    · simp [refusesMembers, hkw, isPropertyBody, isProperty, hb]
  · simp [refusesMembers, hconf, hc]

/-- The `{` after a declaration without a body opens that declaration. -/
theorem Scope.openBrace_push (s : Scope) {f : Frame} (hf : f.braced = false) (a : Option Access) :
    (s.push f).openBrace a = ⟨{ f with braced := true } :: (s.push f).frames.tail⟩ := by
  cases h : s.frames with
  | nil => simp [push, openBrace, h, hf]
  | cons g rest => by_cases hg : g.isBareProperty <;> simp [push, openBrace, h, hg, hf]

theorem Scope.openBrace_in_protocol {s : Scope} (a : Option Access) (hp : s.declares .protocol = true) :
    ∃ F rest, s.openBrace a = ⟨F :: rest⟩ ∧ F.braced = true ∧
      ∃ g ∈ F :: rest, g.refusesMembers = true := by
  obtain ⟨g, hg, hgk⟩ := List.any_eq_true.1 hp
  have hgr : g.refusesMembers = true := by
    simp only [beq_iff_eq] at hgk
    simp [Frame.refusesMembers, hgk, Keyword.localScope]
  unfold openBrace
  cases hs : s.frames with
  | nil => simp [hs] at hg
  | cons top rest =>
    rw [hs] at hg
    by_cases ht : top.braced = true
    · exact ⟨{ access := a, keyword := none, braced := true, conformance := false }, top :: rest,
        by simp [ht], rfl, g, List.mem_cons_of_mem _ hg, hgr⟩
    · refine ⟨{ top with braced := true }, rest, by simp [ht], rfl, ?_⟩
      rcases List.mem_cons.1 hg with rfl | hg
      · exact ⟨_, List.mem_cons_self .., Frame.refusesMembers_open hgr⟩
      · exact ⟨g, List.mem_cons_of_mem _ hg, hgr⟩

/-- The lines before line `i` are those before line `j`, line `j`, and those in between. -/
theorem take_eq_take_append_cons {α : Type} {l : List α} {i j : Nat} {x : α} (hj : j < i)
    (hx : l[j]? = some x) : l.take i = l.take j ++ x :: (l.take i).drop (j + 1) := by
  have hx' : (l.take i)[j]? = some x := by rw [List.getElem?_take_of_lt hj]; exact hx
  obtain ⟨hlt, rfl⟩ := List.getElem?_eq_some_iff.1 hx'
  calc l.take i = (l.take i).take j ++ (l.take i).drop j := (List.take_append_drop _ _).symm
    _ = l.take j ++ (l.take i)[j] :: (l.take i).drop (j + 1) := by
      rw [List.take_take, Nat.min_eq_left (Nat.le_of_lt hj), List.drop_eq_getElem_cons hlt]

namespace Scope

/-- A run that reads inert tokens, then a `{` that opens a frame refusing members (or opens one
above such a frame), and then never closes that `{`, ends with a frame that refuses members on the
stack. -/
theorem Steps.refuses_of_open {s s' : Scope} {w z : List Token}
    (h : Steps s (w ++ .punct .openBrace :: z) s')
    (hw : ∀ t ∈ w, t ≠ .punct .openBrace ∧ t ≠ .punct .closeBrace ∧
      ∀ k, t = .keyword k → k.structural = false)
    (hz : ∀ n, Brackets.closes (z.take n) ≤ Brackets.opens (z.take n))
    (hopen : ∀ a, ∃ F rest, s.openBrace a = ⟨F :: rest⟩ ∧ F.braced = true ∧
      ∃ g ∈ F :: rest, g.refusesMembers = true) :
    ∃ g ∈ s'.frames, g.refusesMembers = true := by
  obtain ⟨s₁, hrun₁, hrun₂⟩ := steps_append.1 h
  obtain rfl : s₁ = s := hrun₁.eq_of_inert hw
  cases hrun₂ with
  | openBrace a hrun =>
    obtain ⟨F, rest, hF, hb, g, hg, hgr⟩ := hopen a
    rw [hF] at hrun
    -- the `{` is never closed, so its frame and all below it stay
    obtain ⟨_, hkeeps⟩ := hrun.keeps hb ⟨[], rfl, rfl⟩ (by simpa [Brackets.closes, Brackets.opens] using hz)
    obtain ⟨hFm, hrest⟩ := hkeeps.mem
    rcases List.mem_cons.1 hg with rfl | hg
    · exact ⟨_, hFm, hgr⟩
    · exact ⟨g, hrest g hg, hgr⟩
  | skip _ ho _ _ => exact absurd rfl ho

/-- The scope in which line `i` is read holds a frame that refuses members, when a declaring
keyword on an earlier line `j` is followed by a `{` that is still open when line `i` starts. -/
theorem refuses_in_open_body (s : Scope) {tss : List (List Token)} {i j : Nat} (hj : j < i)
    {pre post w z : List Token} {k : Keyword}
    (hline : tss[j]? = some (pre ++ .keyword k :: post))
    (hk : k.closesBody = true ∨ (k = .extension ∧ declaresConformance post = true))
    (hlabel : post.head? ≠ some (.punct .colon))
    (hwhile : k = .«while» → pre.getLast? ≠ some (.punct .closeBrace))
    (hbetween : post ++ ((tss.take i).drop (j + 1)).flatten = w ++ .punct .openBrace :: z)
    (hw : ∀ t ∈ w, t ≠ .punct .openBrace ∧ t ≠ .punct .closeBrace ∧
      ∀ k', t = .keyword k' → k'.structural = false)
    (hopen : ((tss.take j).flatten ++ pre ++ .keyword k :: w).length ∈
      Brackets.unmatched (tss.take i).flatten) :
    ∃ g ∈ (scopeAfter s tss i).frames, g.refusesMembers = true := by
  have hsplit := take_eq_take_append_cons hj hline
  -- the brace is never outrun by the closing braces that follow it
  have hz : ∀ n, Brackets.closes (z.take n) ≤ Brackets.opens (z.take n) := by
    have hstream : (tss.take i).flatten =
        ((tss.take j).flatten ++ pre ++ .keyword k :: w) ++ .punct .openBrace :: z := by
      rw [hsplit, List.flatten_append, List.flatten_cons]
      simp only [List.append_assoc, List.cons_append, hbetween]
    rw [hstream] at hopen
    exact Brackets.closes_le_of_unmatched hopen
  -- line `j` up to `k`, then the run from `k` to line `i`
  obtain ⟨s₁, la, hs₁⟩ := addTokens_append_exists pre (.keyword k :: post)
    ((tss.take j).foldl addLine s) none none
  have hrun : ∀ (s₂ : Scope) (prev : Option Token),
      s₁.addTokens la (pre.getLast?.or none) (.keyword k :: post) = s₂.addTokens la prev post →
      Steps s₂ (w ++ .punct .openBrace :: z) (scopeAfter s tss i) := by
    intro s₂ prev h
    have := steps_append.2 ⟨_, addTokens_steps post s₂ la prev,
      steps_foldl_addLine ((tss.take i).drop (j + 1)) _⟩
    rw [hbetween, ← h, ← hs₁] at this
    rw [scopeAfter, hsplit, List.foldl_append, List.foldl_cons]
    exact this
  obtain ⟨hstruct, hacc⟩ : k.structural = true ∧ k.access? = none := by
    rcases hk with hk | ⟨rfl, -⟩
    · exact Keyword.structural_of_closesBody hk
    · exact ⟨rfl, rfl⟩
  by_cases hp : s₁.declares .protocol = true
  · -- inside a protocol nothing is pushed, and the protocol already refuses members
    exact (hrun s₁ _ (addTokens_in_protocol hacc hp)).refuses_of_open hw hz
      fun a => openBrace_in_protocol a hp
  · have hwhile' : k = .«while» → pre.getLast?.or none ≠ some (.punct .closeBrace) := by
      simpa using hwhile
    exact (hrun _ _ (addTokens_declaring hacc hstruct (by simpa using hp) hlabel hwhile')).refuses_of_open
      hw hz fun a => ⟨_, _, openBrace_push s₁ rfl a, rfl, _, List.mem_cons_self ..,
        Frame.refusesMembers_of_keyword rfl rfl rfl hk⟩

end Scope

/-- A line inside the open body of a function, initialiser, subscript, loop, statement block,
protocol, property or conforming extension is not eligible: no change and no selection gives it a
new text, and the rewritten buffer keeps it as it is. -/
theorem ineligible_in_open_body (lines : List String) (i j : Nat) (hj : j < i)
    (pre post w z : List Token) (k : Keyword)
    (hline : (Lexer.tokensOf lines)[j]? = some (pre ++ .keyword k :: post))
    (hk : k.closesBody = true ∨ (k = .extension ∧ declaresConformance post = true))
    (hlabel : post.head? ≠ some (.punct .colon))
    (hwhile : k = .«while» → pre.getLast? ≠ some (.punct .closeBrace))
    (hbetween : post ++ (((Lexer.tokensOf lines).take i).drop (j + 1)).flatten =
      w ++ .punct .openBrace :: z)
    (hw : ∀ t ∈ w, t ≠ .punct .openBrace ∧ t ≠ .punct .closeBrace ∧
      ∀ k', t = .keyword k' → k'.structural = false)
    (hopen : (((Lexer.tokensOf lines).take j).flatten ++ pre ++ .keyword k :: w).length ∈
      Brackets.unmatched ((Lexer.tokensOf lines).take i).flatten) :
    (Buffer.ofLines lines).isEligible i = false ∧
      ∀ (sel : List Nat) (change : AccessChange),
        (∀ text, (i, text) ∉ (Buffer.ofLines lines).newLines sel change) ∧
        ((Buffer.ofLines lines).rewritten sel change)[i]? = lines[i]? := by
  have hine : (Buffer.ofLines lines).isEligible i = false := by
    obtain ⟨g, hg, hgr⟩ := Scope.refuses_in_open_body {} hj hline hk hlabel hwhile hbetween hw hopen
    simp only [Buffer.isEligible, Buffer.classes_getElem?]
    cases (Lexer.tokensOf lines)[i]? with
    | none => rfl
    | some ts => exact Scope.ineligible_of_mem hg hgr ts
  refine ⟨hine, fun sel change => ⟨Buffer.not_mem_newLines_of_isEligible sel change hine, ?_⟩⟩
  exact Buffer.rewritten_getElem?_of_not_mem (Buffer.not_mem_newLines_of_isEligible sel change hine)

/-- A stored property declared inside a function's body, on the line after its `{`, cannot carry
a modifier, and a rewrite leaves it alone. -/
theorem ineligible_let_in_function_body :
    (Buffer.ofLines ["func f() \x7b", "let x = 1"]).isEligible 1 = false ∧
      ((Buffer.ofLines ["func f() \x7b", "let x = 1"]).rewritten [0, 1] (.setLevel .public))[1]? =
        some "let x = 1" :=
  have h := ineligible_in_open_body ["func f() \x7b", "let x = 1"] 1 0 (by decide)
    [] [.identifier "f", .punct .openBrace] [.identifier "f"] [] .func (by cbv) (by decide)
    (by decide) (by decide) (by cbv) (by simp) (by cbv; exact .head _)
  ⟨h.1, (h.2 [0, 1] (.setLevel .public)).2⟩

end SwiftAccess
