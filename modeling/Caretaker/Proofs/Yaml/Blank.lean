import Caretaker.Proofs.Text.Trim
import Caretaker.Yaml.Document

/-!
# Blank texts

A text of blanks alone holds no mapping. Some blanks are characters of words to a reader of YAML, so
that it may hold a scalar, but no character of it opens a collection or separates a key.
-/

namespace Caretaker.Yaml

open Text (isBlank)

/-! ## What is left of a text -/

lemma flatten_consBlock (c : Char) (bs : List Text) :
    (consBlock c bs).flatten = c :: bs.flatten := by
  cases bs <;> rfl

lemma flatten_blocks (room : Nat) (t : Text) : (blocks room t).flatten = t := by
  fun_induction blocks room t with
  | case1 => rfl
  | case2 room c r _ ih => rw [flatten_consBlock, ih]
  | case3 room c r _ ih =>
    rw [List.flatten_cons, List.nil_append, flatten_consBlock, ih]

/-- What can be read of a text is part of it. -/
lemma mem_of_mem_readable {t : Text} {x : Char} (h : x ∈ (readable t).1) : x ∈ t := by
  have hgood : (readable t).1 = ((blocks blockSize t).takeWhile (·.all isPrintable)).flatten := rfl
  rw [hgood] at h
  obtain ⟨b, hb, hx⟩ := List.mem_flatten.mp h
  rw [← flatten_blocks blockSize t]
  exact List.mem_flatten.mpr ⟨b, (List.takeWhile_prefix _).subset hb, hx⟩

/-- A cursor moves on in the text, whatever it takes. -/
lemma Cursor.takeBreak_suffix (c : Cursor) : c.takeBreak.2.rest <:+ c.rest := by
  have hline : ∀ n, (c.newLine n).rest <:+ c.rest := fun n => List.drop_suffix n c.rest
  fun_cases Cursor.takeBreak c with
  | case1 => exact hline 2
  | case2 => exact hline 1
  | case3 => exact hline 1
  | case4 => exact hline 1
  | case5 => exact List.suffix_refl _
  | case6 => exact List.suffix_refl _

lemma Cursor.skipRun_suffix (p : Char → Bool) (c : Cursor) : (c.skipRun p).rest <:+ c.rest :=
  List.drop_suffix _ c.rest

lemma Cursor.ite_suffix {P : Prop} [Decidable P] {c d e : Cursor} (hc : c.rest <:+ e.rest)
    (hd : d.rest <:+ e.rest) : (if P then c else d).rest <:+ e.rest := by
  split_ifs
  · exact hc
  · exact hd

lemma Gap.read_suffix {indent fuel : Nat} {g g' : Gap} {c c' : Cursor}
    (h : Gap.read indent fuel g c = some (g', c')) : c'.rest <:+ c.rest := by
  fun_induction Gap.read indent fuel g c with
  | case1 g c =>
    cases h
    exact List.suffix_refl _
  | case2 fuel g c hrest =>
    cases h
    exact List.suffix_refl _
  | case3 => cases h
  | case4 fuel g c x _ _ _ _ ih => exact (ih h).trans (List.drop_suffix 1 c.rest)
  | case5 fuel g c x _ _ _ _ b c₁ hbreak ih =>
    have hc := c.takeBreak_suffix
    rw [hbreak] at hc
    exact (ih h).trans hc
  | case6 =>
    cases h
    exact List.suffix_refl _

lemma Plain.read_suffix {inFlow : Bool} {indent fuel : Nat} {r r' : Plain.Result} {gap : Gap}
    (h : Plain.read inFlow indent fuel r gap = some r') : r'.cursor.rest <:+ r.cursor.rest := by
  induction fuel generalizing r gap with
  | zero =>
    cases h
    exact List.suffix_refl _
  | succ fuel ih =>
    rw [Plain.read] at h
    split_ifs at h with hends
    · cases h
      exact List.suffix_refl _
    · replace h := Option.bind_eq_some_iff.mp h
      obtain ⟨⟨word, behind⟩, -, h⟩ := h
      dsimp -zeta only at h
      extract_lets skipped r₁ at h
      -- a word is passed over, then the gap behind it, and nothing is put back
      have hword : r₁.cursor.rest <:+ r.cursor.rest := by
        unfold r₁ skipped
        split_ifs
        · exact List.suffix_refl _
        · exact List.drop_suffix _ _
      split at h
      · rw [← Option.some.inj h]
        exact hword
      · obtain ⟨⟨gap₁, c⟩, hgap, h⟩ := Option.bind_eq_some_iff.mp h
        have hc : c.rest <:+ r.cursor.rest := (Gap.read_suffix hgap).trans hword
        dsimp only at h
        split_ifs at h
        · cases h
          exact hc
        · exact (ih h).trans hc

lemma Plain.readAt_suffix {inFlow : Bool} {indent : Nat} {c : Cursor} {r : Plain.Result}
    (h : Plain.readAt inFlow indent c = some r) : r.cursor.rest <:+ c.rest := Plain.read_suffix h

/-! ## Tokens -/

/-- The tokens that open no collection and separate no key. -/
def Token.Kind.isBare : Token.Kind → Bool
  | .streamStart | .streamEnd | .scalar _ => true
  | _ => false

namespace TokenStream

/-- Only blanks are left, and no collection has been opened. -/
structure Bare (s : TokenStream) : Prop where
  blank : ∀ x ∈ s.cursor.rest, isBlank x
  columns : s.columns = []
  outer : s.outer = []
  tokens : ∀ t ∈ s.back, t.kind.isBare

variable {s s' : TokenStream}

lemma bare_ofText {t : Text} (ht : ∀ x ∈ t, isBlank x) : (ofText t).Bare where
  blank x hx := ht x (mem_of_mem_readable hx)
  columns := rfl
  outer := rfl
  tokens _ ht := absurd ht List.not_mem_nil

/-- What has been read up to a later place. -/
lemma Bare.moved (h : s.Bare) {c : Cursor} (hc : c.rest <:+ s.cursor.rest)
    (candidate : Option Candidate) (allowed : Bool) :
    Bare { s with cursor := c, candidate, keyAllowed := allowed } where
  blank x hx := h.blank x (hc.subset hx)
  columns := h.columns
  outer := h.outer
  tokens := h.tokens

/-- A bare token is all that may be added. -/
lemma Bare.add (h : s.Bare) {kind : Token.Kind} (hkind : kind.isBare) (start stop : Mark) :
    (s.add kind start stop).Bare where
  blank := h.blank
  columns := h.columns
  outer := h.outer
  tokens := by
    intro t ht
    rcases List.mem_cons.mp ht with rfl | ht
    · exact hkind
    · exact h.tokens t ht

lemma Bare.dropStale (h : s.Bare) (hs : s.dropStale = some s') : s'.Bare := by
  obtain ⟨candidate, -, hs⟩ := Option.bind_eq_some_iff.mp hs
  obtain ⟨outer, houter, hs⟩ := Option.bind_eq_some_iff.mp hs
  rw [h.outer] at houter
  cases houter
  rw [← Option.some.inj hs]
  exact ⟨h.blank, h.columns, rfl, h.tokens⟩

lemma Bare.dropCandidate (h : s.Bare) (hs : s.dropCandidate = some s') : s'.Bare := by
  rw [TokenStream.dropCandidate] at hs
  split_ifs at hs
  rw [← Option.some.inj hs]
  exact h.moved (List.suffix_refl _) none s.keyAllowed

lemma Bare.addCandidate (h : s.Bare) (hs : s.addCandidate = some s') : s'.Bare := by
  rw [TokenStream.addCandidate] at hs
  split_ifs at hs
  · obtain ⟨s₁, hs₁, hs⟩ := Option.bind_eq_some_iff.mp hs
    rw [← Option.some.inj hs]
    exact (h.dropCandidate hs₁).moved (List.suffix_refl _) _ _
  · rwa [← Option.some.inj hs]

lemma Bare.closeTo (h : s.Bare) (column : Int) : (s.closeTo column).Bare := by
  rw [TokenStream.closeTo, h.columns]
  split_ifs
  · exact h
  · exact ⟨h.blank, rfl, h.outer, h.tokens⟩

lemma Bare.skipGap (h : s.Bare) : s.skipGap.Bare := by
  unfold TokenStream.skipGap
  generalize s.cursor.rest.length + 1 = fuel
  -- whatever a piece of the gap is, an end of the text is left behind it
  fun_induction TokenStream.skipGap.go fuel s with
  | case1 s => exact h
  | case2 fuel s c₁ c₂ c₃ hbreak ih =>
    have h₁ : c₁.rest <:+ s.cursor.rest :=
      Cursor.ite_suffix (List.drop_suffix _ _) (List.suffix_refl _)
    have h₂ : c₂.rest <:+ s.cursor.rest := (c₁.skipRun_suffix _).trans h₁
    have h₃ : c₃.rest <:+ s.cursor.rest :=
      Cursor.ite_suffix ((c₂.skipRun_suffix _).trans h₂) h₂
    exact ih (h.moved (c₃.takeBreak_suffix.trans h₃) _ _)
  | case3 fuel s c₁ c₂ c₃ hbreak =>
    have h₁ : c₁.rest <:+ s.cursor.rest :=
      Cursor.ite_suffix (List.drop_suffix _ _) (List.suffix_refl _)
    have h₂ : c₂.rest <:+ s.cursor.rest := (c₁.skipRun_suffix _).trans h₁
    exact h.moved (Cursor.ite_suffix ((c₂.skipRun_suffix _).trans h₂) h₂) _ _

lemma Bare.streamEnd (h : s.Bare) (hs : s.streamEnd = some s') : s'.Bare := by
  have hmarked : ∀ m, Bare { s with cursor.mark := m } :=
    fun m => h.moved (c := { s.cursor with mark := m }) (List.suffix_refl _) _ _
  obtain ⟨s₁, hs₁, hs⟩ := Option.bind_eq_some_iff.mp hs
  have h₁ := ((hmarked _).closeTo (-1)).dropCandidate hs₁
  rw [← Option.some.inj hs]
  exact (h₁.moved (List.suffix_refl _) s₁.candidate false).add rfl _ _

lemma Bare.plain (h : s.Bare) (hs : s.plain = some s') : s'.Bare := by
  obtain ⟨s₁, hs₁, hs⟩ := Option.bind_eq_some_iff.mp hs
  obtain ⟨r, hr, hs⟩ := Option.bind_eq_some_iff.mp hs
  have h₁ := h.addCandidate hs₁
  have hread := h₁.moved (Plain.readAt_suffix hr) s₁.candidate r.broken
  have hscalar : (Token.Kind.scalar ⟨r.text, true⟩).isBare := rfl
  rw [← Option.some.inj hs]
  exact hread.add hscalar s₁.mark r.stop

/-- No blank has a meaning of its own. -/
lemma readAt_of_isBlank {x : Char} (hx : isBlank x) (hrest : s.cursor.rest.head? = some x)
    (hs : s.readAt x = some s') : s.plain = some s' := by
  have hne : ∀ y : Char, isBlank y = false → (x = y) = False :=
    fun y hy => eq_false fun hxy => Bool.false_ne_true (hy.symm.trans (hxy ▸ hx))
  have hmarker : ∀ y : Char, isBlank y = false → s.cursor.startsMarker y = false := by
    intro y hy
    have hahead : s.cursor.at? 0 y = false := by
      rw [Cursor.at?, Cursor.ahead, ← List.head?_eq_getElem?, hrest]
      simpa using hne y hy
    simp [Cursor.startsMarker, hahead]
  -- whatever opens a token in another way is told from a blank by its first character
  unfold readAt at hs
  simp (disch := decide) only [hne, hmarker, and_false, false_and, or_self, if_false,
    Bool.false_eq_true] at hs
  split_ifs at hs
  exact hs

/-- Each step of a bare scanner leaves it bare. -/
lemma Bare.next (h : s.Bare) (hs : s.next = some s') : s'.Bare := by
  obtain ⟨-, -, hs⟩ := Option.bind_eq_some_iff.mp hs
  split_ifs at hs
  · rw [← Option.some.inj hs]
    exact h.add rfl _ _
  · obtain ⟨s₁, hs₁, hs⟩ := Option.bind_eq_some_iff.mp hs
    have h₂ := (h.skipGap.dropStale hs₁).closeTo s₁.mark.column
    obtain ⟨-, -, hs⟩ := Option.bind_eq_some_iff.mp hs
    split at hs
    · exact h₂.streamEnd hs
    · rename_i x r hrest
      -- a blank that is no gap to this reader, such as a space of another width, starts a scalar
      obtain ⟨s₃, hs₃, hs⟩ := Option.bind_eq_some_iff.mp hs
      obtain ⟨-, -, hs⟩ := Option.bind_eq_some_iff.mp hs
      have hx : isBlank x := h₂.blank x (hrest ▸ List.mem_cons_self ..)
      rw [← Option.some.inj hs]
      exact h₂.plain (readAt_of_isBlank hx (by rw [hrest]; rfl) hs₃)

/-- All tokens that a bare scanner reads are bare. -/
lemma Bare.of_mem_readAll (h : s.Bare) (fuel : Nat) : ∀ t ∈ s.readAll fuel, t.kind.isBare := by
  have hsettled : ∀ {s : TokenStream}, s.Bare → ∀ t ∈ s.settled, t.kind.isBare :=
    fun h t ht => h.tokens t (List.mem_reverse.mp (List.mem_of_mem_take ht))
  induction fuel generalizing s with
  | zero => exact hsettled h
  | succ fuel ih =>
    rw [readAll]
    split
    · exact hsettled h
    · rename_i s₁ hs₁
      obtain ⟨s₂, hs₂, hs₁⟩ := Option.bind_eq_some_iff.mp hs₁
      have h₁ := (h.next hs₂).dropStale hs₁
      split_ifs
      · exact fun t ht => h₁.tokens t (List.mem_reverse.mp ht)
      · exact ih h₁

end TokenStream

/-- A text of blanks has bare tokens only. -/
theorem Token.isBare_of_blank {t : Text} (ht : ∀ x ∈ t, isBlank x) :
    ∀ token ∈ Token.ofText t, token.kind.isBare :=
  (TokenStream.bare_ofText ht).of_mem_readAll _

/-! ## Events -/

/-- The states around the nodes of a stream, and those in which a node on its own is read. -/
def Event.State.isOuter : Event.State → Bool
  | .stream | .document _ | .content | .documentEnd | .blockNode | .finished => true
  | _ => false

/-- An event that starts a mapping. -/
def Event.startsMapping : Event → Bool
  | .mappingStart _ => true
  | _ => false

namespace Event.Grammar

/-- No token that is left can take the grammar into a collection. -/
structure Bare (g : Grammar) : Prop where
  tokens : ∀ t ∈ g.tokens, t.kind.isBare
  state : g.state.isOuter
  stack : ∀ s ∈ g.stack, s.isOuter

variable {g g' : Grammar} {e : Marked Event}

lemma Bare.advance (h : g.Bare) : g.advance.Bare where
  tokens t ht := h.tokens t (List.mem_of_mem_drop ht)
  state := h.state
  stack := h.stack

lemma Bare.pop (h : g.Bare) : g.pop.Bare := by
  rw [Grammar.pop]
  split
  · exact ⟨h.tokens, rfl, h.stack⟩
  · rename_i s stack hstack
    refine ⟨h.tokens, h.stack s (hstack ▸ List.mem_cons_self ..), fun s' hs' => ?_⟩
    exact h.stack s' (hstack ▸ List.mem_cons_of_mem s hs')

lemma Bare.goto (h : g.Bare) {s : State} (hs : s.isOuter) : (g.goto s).Bare :=
  ⟨h.tokens, hs, h.stack⟩

lemma Bare.readProps (h : g.Bare) : g.readProps = some (⟨none, none⟩, g) := by
  rw [Grammar.readProps]
  cases htokens : g.tokens with
  | nil => rfl
  | cons t rest =>
    have hbare := h.tokens t (htokens ▸ List.mem_cons_self ..)
    obtain ⟨kind, start, stop⟩ := t
    cases kind <;> first | rfl | cases hbare

/-- Bare tokens hold no directives. -/
lemma readDirectives_of_bare {tokens : List Token} (h : ∀ t ∈ tokens, t.kind.isBare)
    (versioned : Bool) (handles : List TagName) {read : List Token × List TagName}
    (hread : readDirectives tokens versioned handles = some read) : read.1 = tokens := by
  cases tokens with
  | nil =>
    rw [← Option.some.inj hread]
  | cons t rest =>
    have hbare := h t (List.mem_cons_self ..)
    obtain ⟨kind, start, stop⟩ := t
    cases kind <;> first | rw [← Option.some.inj hread] | cases hbare

/-- A node that is read from bare tokens starts no mapping. -/
lemma Bare.node (h : g.Bare) (hstep : g.node true false = some (e, g')) :
    g'.Bare ∧ ¬ e.value.startsMapping := by
  rw [Grammar.node, h.readProps] at hstep
  obtain ⟨tokens, state, stack, handles⟩ := g
  cases tokens with
  | nil => cases hstep
  | cons t rest =>
    have hbare := h.tokens t (List.mem_cons_self ..)
    obtain ⟨kind, start, stop⟩ := t
    cases kind with
    | scalar s =>
      cases hstep
      exact ⟨h.advance.pop, Bool.false_ne_true⟩
    | streamStart => cases hstep
    | streamEnd => cases hstep
    | _ => cases hbare

lemma Bare.startDocument (h : g.Bare) (first : Bool)
    (hstep : g.startDocument first = some (e, g')) : g'.Bare ∧ ¬ e.value.startsMapping := by
  obtain ⟨t, ht, hstep⟩ := Option.bind_eq_some_iff.mp hstep
  generalize htokens : (if first then g.tokens else g.tokens.dropWhile (·.kind == .documentEnd)) =
    tokens at ht hstep
  have hbare : ∀ t ∈ tokens, t.kind.isBare := by
    rw [← htokens]
    split_ifs
    · exact h.tokens
    · exact fun t ht => h.tokens t ((List.dropWhile_suffix _).subset ht)
  have hstack : ∀ s ∈ State.documentEnd :: g.stack, s.isOuter := by
    intro s hs
    rcases List.mem_cons.mp hs with rfl | hs
    · rfl
    · exact h.stack s hs
  dsimp only at hstep
  split_ifs at hstep
  · cases hstep
    exact ⟨⟨hbare, rfl, hstack⟩, Bool.false_ne_true⟩
  · cases hstep
    exact ⟨⟨hbare, rfl, hstack⟩, Bool.false_ne_true⟩
  · obtain ⟨⟨rest, handles⟩, hrest, hstep⟩ := Option.bind_eq_some_iff.mp hstep
    obtain ⟨start, hstart, hstep⟩ := Option.bind_eq_some_iff.mp hstep
    -- a document that is announced starts with a token of its own, and there is none
    obtain rfl : rest = tokens := readDirectives_of_bare hbare _ _ hrest
    split_ifs at hstep with hkind
    have hannounced := hbare start (List.mem_of_mem_head? hstart)
    rw [hkind] at hannounced
    cases hannounced

/-- A step of a bare grammar gives no event that starts a mapping. -/
lemma Bare.step (h : g.Bare) (hstep : g.step = some (e, g')) :
    g'.Bare ∧ ¬ e.value.startsMapping := by
  obtain ⟨t, ht, hstep⟩ := Option.bind_eq_some_iff.mp hstep
  have hstate := h.state
  cases hcases : g.state with
  | stream =>
    rw [hcases] at hstep
    exact h.advance.startDocument true hstep
  | document first =>
    rw [hcases] at hstep
    exact h.startDocument first hstep
  | content =>
    rw [hcases] at hstep
    dsimp only at hstep
    split_ifs at hstep
    · cases hstep
      exact ⟨h.pop, Bool.false_ne_true⟩
    · exact h.node hstep
  | documentEnd =>
    rw [hcases] at hstep
    cases hstep
    refine ⟨Bare.goto ?_ rfl, Bool.false_ne_true⟩
    split_ifs
    · exact h.advance
    · exact h
  | blockNode =>
    rw [hcases] at hstep
    exact h.node hstep
  | finished =>
    rw [hcases] at hstep
    cases hstep
  | _ =>
    -- the states within a collection
    rw [hcases] at hstate
    cases hstate

/-- No event of a bare grammar starts a mapping. -/
theorem Bare.of_mem_run (h : g.Bare) (fuel : Nat) :
    ∀ e ∈ Grammar.run fuel g, ¬ e.value.startsMapping := by
  induction fuel generalizing g with
  | zero => exact fun e he => absurd he List.not_mem_nil
  | succ fuel ih =>
    rw [run]
    split
    · exact fun e he => absurd he List.not_mem_nil
    · rename_i e g' hstep
      obtain ⟨hg', he⟩ := h.step hstep
      intro e' he'
      rcases List.mem_cons.mp he' with rfl | he'
      · exact he
      · exact ih hg' e' he'

end Event.Grammar

/-! ## Parts -/

namespace Document

/-- A part that starts a mapping comes from an event that does. -/
lemma value_ne_of_mem_collect {events : List (Marked Event)} {r : Reading}
    (hevents : ∀ e ∈ events, ¬ e.value.startsMapping)
    (hr : ∀ p ∈ r.back, p.value ≠ .mappingStart) :
    ∀ p ∈ (collect events r).1.back, p.value ≠ .mappingStart := by
  have hadd : ∀ {r : Reading} (name : Option Text) {part : Part} (m : Mark),
      (∀ p ∈ r.back, p.value ≠ .mappingStart) → part ≠ .mappingStart →
        ∀ p ∈ (r.add name part m).back, p.value ≠ .mappingStart := by
    intro r name part m hr hpart p hp
    rcases List.mem_cons.mp hp with rfl | hp
    · exact hpart
    · exact hr p hp
  have htail : ∀ {e : Marked Event} {rest : List (Marked Event)},
      (∀ e' ∈ e :: rest, ¬ e'.value.startsMapping) → ∀ e' ∈ rest, ¬ e'.value.startsMapping :=
    fun h e' he' => h e' (List.mem_cons_of_mem _ he')
  fun_induction collect events r
  case case1 | case3 | case4 | case5 => exact hr
  case case2 ih => exact ih (htail hevents) hr
  case case6 ih | case7 ih | case8 ih | case9 ih | case11 ih =>
    exact ih (htail hevents) (hadd _ _ hr nofun)
  case case10 => exact absurd rfl (hevents _ (List.mem_cons_self ..))

/-- A text of blanks alone starts no mapping. -/
lemma value_ne_of_blank {t : Text} (ht : ∀ x ∈ t, isBlank x) :
    ∀ p ∈ (ofText t).parts, p.value ≠ .mappingStart := by
  have hgrammar : Event.Grammar.Bare ⟨Token.ofText t, .stream, [], []⟩ :=
    ⟨Token.isBare_of_blank ht, rfl, nofun⟩
  have hevents : ∀ e ∈ Event.ofTokens (Token.ofText t), ¬ e.value.startsMapping :=
    hgrammar.of_mem_run _
  have hparts := value_ne_of_mem_collect (r := ⟨[], ⟨[], []⟩⟩) hevents
    fun p hp => absurd hp List.not_mem_nil
  intro p hp
  obtain ⟨q, hq, rfl⟩ := List.mem_map.mp hp
  have hvalue := hparts q (List.mem_reverse.mp hq)
  rw [resolve]
  split
  · exact nofun
  · exact hvalue

end Document

end Caretaker.Yaml
