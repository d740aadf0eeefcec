import Stylesheet.Proofs.Outcome

/-!
# The bodies of rule sets and font descriptions

A declaration inside of braces is meant to be a line of its own: indented one level further than the
braces, and ended by one semicolon (`DeclarationLine.entry`). Who adds the two is not the same for
all: a declaration adds them itself if a rule set owns it (`DeclarationLine.text`), a font
description adds them to whatever its declarations are. So both come out right exactly if the
declarations of a rule set are owned and those of a font description are not
(`intercalate_bodyEntry_eq_iff`).
-/

namespace Stylesheet

open Print

/-- The indentation of a line. -/
def indentText (unit : String) (level : Int) : String :=
  String.join (List.replicate level.toNat unit)

/-- What a declaration comes to in print. -/
structure DeclarationLine where
  property : String
  value : String
  important : Bool
  owned : Bool

namespace DeclarationLine

/-- A declaration without indentation and semicolon. -/
def bare (l : DeclarationLine) : String :=
  Escape.Identifier.escape l.property ++ ": " ++ l.value ++
    (if l.important then " !important" else "")

/-- A declaration as a line of its own, between braces at a level of indentation. -/
def entry (unit : String) (level : Int) (l : DeclarationLine) : String :=
  indentText unit (level + 1) ++ l.bare ++ ";"

/-- A declaration as it is printed at a level of indentation. -/
def text (unit : String) (level : Int) (l : DeclarationLine) : String :=
  if l.owned then l.entry unit level else l.bare

end DeclarationLine

/-- Declarations are printed with their values one level further in. -/
theorem exec_declaration (property important : Value) (expressions : Parts) (owned : Bool)
    (unit lineBreak : String) (compact : Bool) (s : PrintState) :
    let layout := Layout.ofTexts unit lineBreak compact
    (Render.declaration property expressions important owned).exec layout s =
      match (Render.declarationValue expressions).exec layout { s with level := s.level + 1 } with
      | (.ok value, t) =>
        match property.text? with
        | some p =>
          (.ok (DeclarationLine.text unit s.level ⟨p, value, !important.isVacant, owned⟩),
            { t with level := t.level - 1 })
        | none => (.error (.identifierNotText property), { t with level := t.level - 1 })
      | (.error e, t) => (.error e, { t with level := t.level - 1 }) := by
  intro layout
  have hstart : (Render.lineStart owned).exec layout { s with level := s.level + 1 } =
      (.ok (if owned then indentText unit (s.level + 1) else ""),
        { s with level := s.level + 1 }) := by
    cases owned <;> rfl
  rw [Render.declaration, exec_bind, exec_indented, exec_bind, hstart]
  simp only [exec_bind]
  rcases (Render.declarationValue expressions).exec layout { s with level := s.level + 1 } with
    ⟨_ | value, t⟩
  · rfl
  · simp only [exec_pure, Print.identifier]
    cases property.text? with
    | none => rfl
    | some p =>
      cases owned <;> cases important.isVacant <;>
        simp [DeclarationLine.text, DeclarationLine.entry, DeclarationLine.bare,
          String.append_assoc]

/-! ## Declarations -/

/-- Whether a value is a declaration. -/
def Value.IsDeclaration (v : Value) : Prop :=
  ∃ property expressions important owned,
    v.contents = .node (.declaration property expressions important owned)

/-- What a declaration comes to when it is printed at a level of indentation. -/
def Value.IsLine (layout : Layout) (level : Int) (v : Value) (l : DeclarationLine) : Prop :=
  ∃ property expressions important,
    v.contents = .node (.declaration property expressions important l.owned) ∧
    property.text? = some l.property ∧ l.important = !important.isVacant ∧
    ((Render.declarationValue expressions.parts).exec layout { level := level + 1 }).1 = .ok l.value

variable {unit lineBreak : String} {compact : Bool}

/-- A declaration that is printed is printed as its line. -/
theorem Value.IsDeclaration.exists_isLine {v : Value} (h : v.IsDeclaration) {level : Int}
    {t : String} (ht : v.textAt (.ofTexts unit lineBreak compact) level = .ok t) :
    ∃ l, v.IsLine (.ofTexts unit lineBreak compact) level l ∧ t = l.text unit level := by
  obtain ⟨property, expressions, important, owned, hv⟩ := h
  rw [Value.textAt, ← Value.render_contents, hv, Value.render, Node.render, exec_declaration] at ht
  cases hvalue : (Render.declarationValue expressions.parts).exec
      (.ofTexts unit lineBreak compact) { level := level + 1 } with
  | mk outcome state =>
    rw [hvalue] at ht
    cases outcome with
    | error e => cases ht
    | ok value =>
      cases hp : property.text? with
      | none =>
        simp only [hp] at ht
        cases ht
      | some p =>
        simp only [hp] at ht
        cases ht
        exact ⟨_, ⟨property, expressions, important, hv, hp, rfl, by rw [hvalue]⟩, rfl⟩

/-! ## Bodies -/

theorem exists_of_bind_eq_ok {ε α β : Type} {x : Except ε α} {f : α → Except ε β} {b : β}
    (h : x >>= f = .ok b) : ∃ a, x = .ok a ∧ f a = .ok b := by
  cases x with
  | error e => cases h
  | ok a => exact ⟨a, rfl, h⟩

theorem forall₂_of_mapM_eq_ok {ε α β : Type} {f : α → Except ε β} {as : List α} {bs : List β}
    (h : as.mapM f = .ok bs) : List.Forall₂ (fun a b => f a = .ok b) as bs := by
  induction as generalizing bs with
  | nil =>
    cases h
    exact .nil
  | cons a as ih =>
    rw [List.mapM_cons] at h
    obtain ⟨b, hb, h⟩ := exists_of_bind_eq_ok h
    obtain ⟨bs', hbs, h⟩ := exists_of_bind_eq_ok h
    cases h
    exact .cons hb (ih hbs)

theorem gives_indented {α : Type} {layout : Layout} {act : Print α} {n : Int}
    {x : Except Fault α} (h : Gives layout act (n + 1) x (n + 1)) :
    Gives layout (indented act) n x n := by
  rintro s rfl
  obtain ⟨hx, hm⟩ := h { s with level := s.level + 1 } rfl
  refine ⟨hx, fun a ha => ?_⟩
  have hlevel := hm a ha
  rw [exec_indented]
  show (act.exec layout { s with level := s.level + 1 }).2.level - 1 = s.level
  omega

theorem gives_block (selectors : String) (ts : List String) (n : Int) :
    Gives (.ofTexts unit lineBreak false) (Render.block selectors ts) n
      (.ok (indentText unit n ++ selectors ++ " \x7b" ++ lineBreak ++ lineBreak.intercalate ts ++
        lineBreak ++ indentText unit n ++ "\x7d")) n := by
  rintro s rfl
  exact ⟨rfl, fun _ _ => rfl⟩

/-- Whether a value is a rule set with selectors, or a font description, that has `ds` for its
declarations. -/
inductive Value.HasBody (v : Value) (ds : List Value) : Kind → Prop
  | ruleSet {selectors declarations parent : Value} :
    v.contents = .node (.ruleSet selectors declarations parent) → selectors.isVacant = false →
    declarations.items? = some ds → HasBody v ds .ruleSet
  | fontFace {declarations : Value} :
    v.contents = .node (.fontFace declarations) → declarations.items? = some ds →
    HasBody v ds .fontFace

/-- What is printed in front of a body, up to the brace. -/
def Value.IsHead (layout : Layout) (level : Int) (v : Value) (head : String) : Prop :=
  match v.contents with
  | .node (.ruleSet selectors _ _) =>
    ∃ indent ss, layout.indentation level = .ok indent ∧
      ((selectors.parts.separated ", ").exec layout { level }).1 = .ok ss ∧
      head = indent ++ ss ++ " \x7b"
  | _ => head = "@font-face \x7b"

/-- The level at which the declarations of a body are printed. -/
def bodyLevel (kind : Kind) (level : Int) : Int := if kind = .ruleSet then level else level + 1

/-- A declaration in a body: a rule set takes its text as it is, a font description indents it and
adds a semicolon. -/
def bodyEntry (kind : Kind) (unit : String) (level : Int) (l : DeclarationLine) : String :=
  if kind = .ruleSet then l.text unit level
  else indentText unit (level + 1) ++ l.text unit (level + 1) ++ ";"

section

variable (unit lineBreak) {declarations : Value} {ds : List Value}
  (hitems : declarations.items? = some ds) (hfree : ∀ d ∈ ds, d.DocumentFree) (n : Int)

include hitems hfree

theorem gives_ruleSet {selectors : Value} (hs : selectors.DocumentFree)
    (hvacant : selectors.isVacant = false) :
    let layout := Layout.ofTexts unit lineBreak false
    Gives layout (Render.ruleSet selectors selectors.parts declarations.parts) n (do
      let ss ← ((selectors.parts.separated ", ").exec layout { level := n }).1
      let ts ← ds.mapM (Value.textAt layout n)
      return indentText unit n ++ ss ++ " \x7b" ++ lineBreak ++ lineBreak.intercalate ts ++
        lineBreak ++ indentText unit n ++ "\x7d") n := by
  intro layout
  have hselectors : (selectors.parts.separated ", ").Steady layout :=
    steady_of_rel fun _ => Comparison.prints_separated hs.sound.2 _
  have htexts : Gives layout declarations.parts.texts n (ds.mapM (Value.textAt layout n)) n := by
    rw [Value.texts_of_items? hitems]
    exact Gives.mapM fun d hd => (hfree d hd).gives
  rw [Render.ruleSet, if_neg (by simp [hvacant])]
  exact Gives.bind hselectors.gives fun ss _ => Gives.bind htexts fun ts _ => gives_block ss ts n

theorem gives_fontFace :
    let layout := Layout.ofTexts unit lineBreak false
    Gives layout (Render.fontFace declarations.parts) n (do
      let ts ← ds.mapM fun d => do
        let t ← d.textAt layout (n + 1)
        return indentText unit (n + 1) ++ t ++ ";"
      return "@font-face \x7b" ++ lineBreak ++ lineBreak.intercalate ts ++ lineBreak ++
        indentText unit n ++ "\x7d") n := by
  intro layout
  have heach (inner : String) : Gives layout
      (declarations.parts.each fun p => do
        let t ← p.text
        pure (inner ++ t ++ ";")) (n + 1)
      (ds.mapM fun d => do
        let t ← d.textAt layout (n + 1)
        return inner ++ t ++ ";") (n + 1) := by
    rw [Value.parts_eq_map, hitems]
    show Gives layout ((ds.map Value.part).mapM _) _ _ _
    rw [List.mapM_map]
    exact Gives.mapM fun d hd => Gives.bind (hfree d hd).gives fun t _ => Gives.pure _
  have hbody : Gives layout (do
      let inner ← indentation
      declarations.parts.each fun p => do
        let t ← p.text
        pure (inner ++ t ++ ";")) (n + 1) (layout.indentation (n + 1) >>= fun inner =>
      ds.mapM fun d => do
        let t ← d.textAt layout (n + 1)
        return inner ++ t ++ ";") (n + 1) :=
    Gives.bind Gives.indentation fun inner _ => heach inner
  have hclose (ts : List String) : Gives layout (do
      let lineBreak ← Print.lineBreak
      let indent ← Print.indentation
      return "@font-face \x7b" ++ lineBreak ++ lineBreak.intercalate ts ++ lineBreak ++ indent ++
        "\x7d") n (layout.joint >>= fun lineBreak => layout.indentation n >>= fun indent =>
      return "@font-face \x7b" ++ lineBreak ++ lineBreak.intercalate ts ++ lineBreak ++ indent ++
        "\x7d") n :=
    Gives.bind Gives.lineBreak fun _ _ => Gives.bind Gives.indentation fun _ _ => Gives.pure _
  exact Gives.bind (gives_indented hbody) fun ts _ => hclose ts

end

/-- Declarations that are printed at a level, each with something around it, are printed as
lines. -/
theorem exists_lines_of_texts (around : String → String) {ds : List Value}
    (hds : ∀ d ∈ ds, d.IsDeclaration) {level : Int} {es : List String}
    (h : List.Forall₂ (fun d e => ∃ t,
      d.textAt (.ofTexts unit lineBreak compact) level = .ok t ∧ around t = e) ds es) :
    ∃ lines, List.Forall₂ (Value.IsLine (.ofTexts unit lineBreak compact) level) ds lines ∧
      es = lines.map fun l => around (l.text unit level) := by
  induction h with
  | nil => exact ⟨[], .nil, rfl⟩
  | cons ht _ ih =>
    obtain ⟨hd, hds⟩ := List.forall_mem_cons.1 hds
    obtain ⟨t, ht, rfl⟩ := ht
    obtain ⟨l, hl, rfl⟩ := hd.exists_isLine ht
    obtain ⟨lines, hlines, rfl⟩ := ih hds
    exact ⟨l :: lines, .cons hl hlines, rfl⟩

/-- What is printed for a body: its declarations, each as a line, with line breaks around them. -/
theorem Value.HasBody.exists_lines {v : Value} {ds : List Value} {kind : Kind}
    (h : v.HasBody ds kind) (hfree : v.DocumentFree) (hds : ∀ d ∈ ds, d.IsDeclaration)
    {s : PrintState} {text : String}
    (hprint : (v.render.exec (.ofTexts unit lineBreak false) s).1 = .ok text) :
    ∃ head lines, v.IsHead (.ofTexts unit lineBreak false) s.level head ∧
      List.Forall₂
        (Value.IsLine (.ofTexts unit lineBreak false) (bodyLevel kind s.level)) ds lines ∧
      text = head ++ lineBreak ++ lineBreak.intercalate (lines.map (bodyEntry kind unit s.level)) ++
        lineBreak ++ indentText unit s.level ++ "\x7d" := by
  rw [← Value.render_contents] at hprint
  have hcontents := hfree.contents
  cases h with
  | @ruleSet selectors declarations parent hv hvacant hitems =>
    rw [hv] at hprint hcontents
    cases hcontents with
    | node _ hfields =>
      simp only [Node.fields, Node.entries, List.map_cons, List.forall_mem_cons] at hfields
      have hfree' : ∀ d ∈ ds, d.DocumentFree := fun d hd => hfields.2.1.of_mem_items? hitems hd
      have hgives := (gives_ruleSet unit lineBreak hitems hfree' s.level hfields.1 hvacant s rfl).1
      rw [Value.render, Node.render, hgives] at hprint
      obtain ⟨ss, hss, hprint⟩ := exists_of_bind_eq_ok hprint
      obtain ⟨ts, hts, hprint⟩ := exists_of_bind_eq_ok hprint
      obtain ⟨lines, hlines, rfl⟩ := exists_lines_of_texts id hds
        ((forall₂_of_mapM_eq_ok hts).imp fun _ t ht => ⟨t, ht, rfl⟩)
      cases hprint
      refine ⟨indentText unit s.level ++ ss ++ " \x7b", lines, ?_, hlines, rfl⟩
      rw [Value.IsHead, hv]
      exact ⟨_, ss, rfl, hss, rfl⟩
  | @fontFace declarations hv hitems =>
    rw [hv] at hprint hcontents
    cases hcontents with
    | node _ hfields =>
      simp only [Node.fields, Node.entries, List.map_cons, List.forall_mem_cons] at hfields
      have hfree' : ∀ d ∈ ds, d.DocumentFree := fun d hd => hfields.1.of_mem_items? hitems hd
      have hgives := (gives_fontFace unit lineBreak hitems hfree' s.level s rfl).1
      rw [Value.render, Node.render, hgives] at hprint
      obtain ⟨es, hes, hprint⟩ := exists_of_bind_eq_ok hprint
      obtain ⟨lines, hlines, rfl⟩ := exists_lines_of_texts
        (fun t => indentText unit (s.level + 1) ++ t ++ ";") hds
        ((forall₂_of_mapM_eq_ok hes).imp fun _ e he => by
          obtain ⟨t, ht, he⟩ := exists_of_bind_eq_ok he
          exact ⟨t, ht, Except.ok.inj he⟩)
      cases hprint
      refine ⟨"@font-face \x7b", lines, ?_, hlines, rfl⟩
      rw [Value.IsHead, hv]

/-! ## Bodies as they are meant -/

section

variable {α : Type} {f g : α → String} {ls : List α}

theorem length_intercalate_le (b : String) (h : ∀ l ∈ ls, (f l).length ≤ (g l).length) :
    (b.intercalate (ls.map f)).length ≤ (b.intercalate (ls.map g)).length := by
  induction ls with
  | nil => exact Nat.le_refl _
  | cons l ls ih =>
    obtain ⟨hl, hls⟩ := List.forall_mem_cons.1 h
    have hrest := ih hls
    cases ls with
    | nil => simpa using hl
    | cons m ms =>
      simp only [List.map_cons, String.intercalate_cons_cons, String.length_append] at hrest ⊢
      omega

/-- Texts joined are longer if none of them is shorter and one is longer. -/
theorem length_intercalate_lt (b : String) (h : ∀ l ∈ ls, (f l).length ≤ (g l).length) {l : α}
    (hl : l ∈ ls) (hlt : (f l).length < (g l).length) :
    (b.intercalate (ls.map f)).length < (b.intercalate (ls.map g)).length := by
  induction ls with
  | nil => cases hl
  | cons m ms ih =>
    obtain ⟨hm, hms⟩ := List.forall_mem_cons.1 h
    have hrest := length_intercalate_le b hms
    cases ms with
    | nil =>
      cases List.mem_singleton.1 hl
      simpa using hlt
    | cons k ks =>
      simp only [List.map_cons, String.intercalate_cons_cons, String.length_append] at hrest ih ⊢
      rcases List.mem_cons.1 hl with rfl | hl
      · omega
      · have := ih hms hl
        omega

end

section

variable {kind : Kind} {l : DeclarationLine}

/-- Where exactly one of a declaration and its body adds the indentation and the semicolon, the
declaration is a line of its own. -/
theorem bodyEntry_eq_entry (h : l.owned = true ↔ kind = .ruleSet) (level : Int) :
    bodyEntry kind unit level l = l.entry unit level := by
  unfold bodyEntry DeclarationLine.text
  by_cases hk : kind = .ruleSet
  · rw [if_pos hk, if_pos (h.2 hk)]
  · rw [if_neg hk, if_neg fun ho => hk (h.1 ho), DeclarationLine.entry]

/-- Where none of them does, the indentation and the semicolon are missing. -/
theorem length_bodyEntry_lt (hk : kind = .ruleSet) (ho : l.owned ≠ true) (level : Int) :
    (bodyEntry kind unit level l).length < (l.entry unit level).length := by
  rw [bodyEntry, if_pos hk, DeclarationLine.text, if_neg ho, DeclarationLine.entry]
  simp only [String.length_append]
  have hsemicolon : ";".length = 1 := rfl
  omega

theorem length_bodyEntry_le (hk : kind = .ruleSet) (level : Int) :
    (bodyEntry kind unit level l).length ≤ (l.entry unit level).length := by
  by_cases ho : l.owned = true
  · exact Nat.le_of_eq (congrArg String.length (bodyEntry_eq_entry (iff_of_true ho hk) level))
  · exact Nat.le_of_lt (length_bodyEntry_lt hk ho level)

/-- Where both do, they are there twice. -/
theorem length_entry_lt (hk : kind ≠ .ruleSet) (ho : l.owned = true) (level : Int) :
    (l.entry unit level).length < (bodyEntry kind unit level l).length := by
  rw [bodyEntry, if_neg hk, DeclarationLine.text, if_pos ho, DeclarationLine.entry,
    DeclarationLine.entry]
  simp only [String.length_append]
  have hsemicolon : ";".length = 1 := rfl
  omega

theorem length_entry_le (hk : kind ≠ .ruleSet) (level : Int) :
    (l.entry unit level).length ≤ (bodyEntry kind unit level l).length := by
  by_cases ho : l.owned = true
  · exact Nat.le_of_lt (length_entry_lt hk ho level)
  · exact Nat.le_of_eq (congrArg String.length (bodyEntry_eq_entry (iff_of_false ho hk) level).symm)

end

/-- A body is what it is meant to be exactly if it is that of a rule set that owns all its
declarations, or that of a font description whose declarations have no owner. -/
theorem intercalate_bodyEntry_eq_iff (kind : Kind) (level : Int) (lines : List DeclarationLine) :
    lineBreak.intercalate (lines.map (bodyEntry kind unit level)) =
        lineBreak.intercalate (lines.map (DeclarationLine.entry unit level)) ↔
      ∀ l ∈ lines, (l.owned = true ↔ kind = .ruleSet) := by
  constructor
  · intro heq l hl
    -- A line that is wrong makes the body shorter in a rule set, and longer elsewhere.
    have hlength := congrArg String.length heq
    by_cases hk : kind = .ruleSet
    · refine iff_of_true (Decidable.byContradiction fun ho => ?_) hk
      refine Nat.ne_of_lt ?_ hlength
      exact length_intercalate_lt lineBreak (fun _ _ => length_bodyEntry_le hk level) hl
        (length_bodyEntry_lt hk ho level)
    · refine iff_of_false (fun ho => ?_) hk
      refine Nat.ne_of_gt ?_ hlength
      exact length_intercalate_lt lineBreak (fun _ _ => length_entry_le hk level) hl
        (length_entry_lt hk ho level)
  · intro h
    rw [List.map_congr_left fun l hl => bodyEntry_eq_entry (h l hl) level]

end Stylesheet
