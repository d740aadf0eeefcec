import Stylesheet.Escape.Identifier
import Stylesheet.Escape.Quoted
import Stylesheet.Number.Numeral
import Stylesheet.Text.Blank

/-!
# Brackets and strings in a text

A scan (`Scan`) reads a text from left to right as a reader of stylesheets would that knows strings,
escapes and brackets only. A backslash hides the next character, a double quote starts a string or
ends it, and a bracket counts outside of strings if it is not hidden: one that closes must fit the
last one that is open. The curly ones are written down, each with the number of brackets around it.

`Reads before t after braces` says that `t`, met outside of strings, turns the open brackets
`before` into `after` and ends outside of strings too, with nothing hidden. Texts that follow one
another (`Reads.append`) and texts inside further brackets (`Reads.frame`) are read by themselves,
because a scan does not depend on what is open around it (`Scan.read_under`). A text is contained
(`Contained`) if it leaves no bracket open. So are escaped names (`Escape.contained_identifier`),
quoted texts (`Escape.contained_quoted`), and all texts without special characters
(`IsInert.contained`), numerals among them. What trimming leaves of a contained text is contained
with an end put to it (`Contained.trim_append`).
-/

namespace Stylesheet

/-- How the next character of a text is read. -/
inductive Mode where
  | plain
  /-- Behind a backslash. -/
  | hidden
  /-- Inside a string. -/
  | quoted
  /-- Inside a string, behind a backslash. -/
  | quotedHidden
deriving DecidableEq

/-- A curly bracket: whether it opens a block, and how many brackets are open around the block. -/
structure Brace where
  opens : Bool
  depth : Nat
deriving DecidableEq

/-- The same bracket inside so many more brackets. -/
def Brace.deeper (n : Nat) (b : Brace) : Brace := { b with depth := b.depth + n }

/-- What has been read of a text. -/
structure Scan where
  mode : Mode := .plain
  /-- The brackets that are open, the innermost first. -/
  opened : List Char := []
  /-- The curly brackets so far. -/
  braces : List Brace := []
deriving DecidableEq

/-- What a character does outside of strings if nothing hides it. -/
inductive Role where
  | backslash
  | quote
  | opening
  /-- Closes the given bracket. -/
  | closing (partner : Char)
  | inert
deriving DecidableEq

/-- The role of a character. -/
def role : Char → Role
  | '\\' => .backslash
  | '"' => .quote
  | '(' => .opening
  | '[' => .opening
  | '\x7b' => .opening
  | ')' => .closing '('
  | ']' => .closing '['
  | '\x7d' => .closing '\x7b'
  | _ => .inert

namespace Scan

/-- Opens a bracket. -/
def push (s : Scan) (c : Char) : Scan :=
  { s with
    opened := c :: s.opened
    braces := s.braces ++ if c = '\x7b' then [⟨true, s.opened.length⟩] else [] }

/-- Closes a bracket, if it is the last one that was opened. -/
def pop? (s : Scan) (c : Char) : Option Scan :=
  match s.opened with
  | [] => none
  | d :: rest =>
    if d = c then
      some { s with
        opened := rest
        braces := s.braces ++ if c = '\x7b' then [⟨false, rest.length⟩] else [] }
    else none

/-- Reads a character; a bracket that closes no open one cannot be read. -/
def step (s : Scan) (c : Char) : Option Scan :=
  match s.mode, role c with
  | .hidden, _ => some { s with mode := .plain }
  | .quotedHidden, _ => some { s with mode := .quoted }
  | .quoted, .backslash => some { s with mode := .quotedHidden }
  | .quoted, .quote => some { s with mode := .plain }
  | .quoted, _ => some s
  | .plain, .backslash => some { s with mode := .hidden }
  | .plain, .quote => some { s with mode := .quoted }
  | .plain, .opening => some (s.push c)
  | .plain, .closing d => s.pop? d
  | .plain, .inert => some s

/-- Reads characters. -/
def read (s : Scan) (cs : List Char) : Option Scan := cs.foldlM step s

theorem read_cons (s : Scan) (c : Char) (cs : List Char) :
    s.read (c :: cs) = (s.step c).bind (·.read cs) := by
  rw [read, List.foldlM_cons]
  rfl

theorem read_append (s : Scan) (cs ds : List Char) :
    s.read (cs ++ ds) = (s.read cs).bind (·.read ds) := by
  rw [read, List.foldlM_append]
  rfl

/-! ## Inside further brackets -/

/-- A scan that went on from what another one has read. -/
def under (s outer : Scan) : Scan where
  mode := s.mode
  opened := s.opened ++ outer.opened
  braces := outer.braces ++ s.braces.map (Brace.deeper outer.opened.length)

theorem push_under (s outer : Scan) (c : Char) :
    (s.under outer).push c = (s.push c).under outer := by
  simp only [push, under]
  split <;> simp [Brace.deeper]

theorem pop?_under {s s' : Scan} (outer : Scan) {c : Char} (h : s.pop? c = some s') :
    (s.under outer).pop? c = some (s'.under outer) := by
  rcases s with ⟨mode, _ | ⟨d, rest⟩, braces⟩
  · cases h
  simp only [pop?] at h
  split at h
  case isFalse => cases h
  case isTrue hd =>
    cases h
    simp only [pop?, under, List.cons_append, if_pos hd]
    split <;> simp [Brace.deeper]

theorem step_under {s s' : Scan} (outer : Scan) {c : Char} (h : s.step c = some s') :
    (s.under outer).step c = some (s'.under outer) := by
  have hmode : (s.under outer).mode = s.mode := rfl
  unfold step at h ⊢
  rw [hmode]
  cases hm : s.mode <;> cases hr : role c <;> simp only [hm, hr, Option.some.injEq] at h ⊢
  case plain.opening => rw [push_under, h]
  case plain.closing d => exact pop?_under outer h
  all_goals
    subst h
    rfl

/-- What is open around a text changes nothing about how it is read. -/
theorem read_under {s s' : Scan} (outer : Scan) {cs : List Char} (h : s.read cs = some s') :
    (s.under outer).read cs = some (s'.under outer) := by
  induction cs generalizing s with
  | nil =>
    cases h
    rfl
  | cons c cs ih =>
    rw [read_cons] at h ⊢
    obtain ⟨t, ht, h⟩ := Option.bind_eq_some_iff.1 h
    rw [step_under outer ht]
    exact ih h

end Scan

/-! ## Texts by themselves -/

/-- Outside of strings a text turns the open brackets `before` into `after`. -/
def Reads (before : List Char) (t : String) (after : List Char) (braces : List Brace) : Prop :=
  (⟨.plain, before, []⟩ : Scan).read t.toList = some ⟨.plain, after, braces⟩

instance (before after : List Char) (t : String) (braces : List Brace) :
    Decidable (Reads before t after braces) :=
  inferInstanceAs (Decidable (_ = _))

/-- A text that leaves no bracket open and closes none around it. -/
abbrev Contained (t : String) (braces : List Brace) : Prop := Reads [] t [] braces

theorem Reads.frame {before after : List Char} {t : String} {bs : List Brace}
    (h : Reads before t after bs) (rest : List Char) :
    Reads (before ++ rest) t (after ++ rest) (bs.map (Brace.deeper rest.length)) := by
  have := Scan.read_under ⟨.plain, rest, []⟩ h
  simpa [Reads, Scan.under] using this

theorem Reads.append {before middle after : List Char} {t u : String} {bs cs : List Brace}
    (h : Reads before t middle bs) (h' : Reads middle u after cs) :
    Reads before (t ++ u) after (bs ++ cs) := by
  have hu := Scan.read_under ⟨.plain, [], bs⟩ h'
  have hdeeper : Brace.deeper 0 = id := rfl
  simp only [Scan.under, List.append_nil, List.map_nil, List.length_nil, hdeeper, List.map_id] at hu
  rw [Reads, String.toList_append, Scan.read_append, h]
  exact hu

/-- Texts without curly brackets can stand inside any brackets. -/
theorem Contained.inside {t : String} (h : Contained t []) (opened : List Char) :
    Reads opened t opened [] := h.frame opened

theorem contained_join {ts : List String} (h : ∀ t ∈ ts, Contained t []) :
    Contained (String.join ts) [] := by
  induction ts with
  | nil => exact rfl
  | cons t ts ih =>
    rw [String.join_cons]
    exact (h t List.mem_cons_self).append (ih fun u hu => h u (List.mem_cons_of_mem t hu))

theorem contained_intercalate {b : String} (hb : Contained b []) {ts : List String}
    (h : ∀ t ∈ ts, Contained t []) : Contained (b.intercalate ts) [] := by
  induction ts with
  | nil => exact rfl
  | cons t ts ih =>
    obtain ⟨ht, hts⟩ := List.forall_mem_cons.1 h
    cases ts with
    | nil => rwa [String.intercalate_singleton]
    | cons u ts =>
      rw [String.intercalate_cons_cons]
      exact (ht.append hb).append (ih hts)

/-! ## Texts without special characters -/

/-- The characters that are not inert. -/
def specials : List Char := ['\\', '"', '(', '[', '\x7b', ')', ']', '\x7d']

theorem role_of_not_mem_specials {c : Char} (h : c ∉ specials) : role c = .inert := by
  unfold role
  split <;> first | rfl | exact absurd (by decide) h

theorem role_eq_backslash {c : Char} (h : role c = .backslash) : c = '\\' := by
  unfold role at h
  split at h <;> first | rfl | cases h

theorem role_eq_quote {c : Char} (h : role c = .quote) : c = '"' := by
  unfold role at h
  split at h <;> first | rfl | cases h

/-- A kind of characters with none of the special ones is inert. -/
theorem role_of_any_specials {p : Char → Bool} (hp : specials.any p = false) {c : Char}
    (hc : p c = true) : role c = .inert :=
  role_of_not_mem_specials fun h => List.any_eq_false.1 hp c h hc

theorem role_of_isBlank {c : Char} : Text.isBlank c = true → role c = .inert :=
  role_of_any_specials (by decide)

theorem role_of_isDigit {c : Char} : c.isDigit = true → role c = .inert :=
  role_of_any_specials (by decide)

/-- A text without backslashes, double quotes and brackets. -/
def IsInert (t : String) : Prop := ∀ c ∈ t.toList, role c = .inert

instance (t : String) : Decidable (IsInert t) := List.decidableBAll (role · = .inert) t.toList

theorem IsInert.append {t u : String} (ht : IsInert t) (hu : IsInert u) : IsInert (t ++ u) := by
  intro c hc
  rw [String.toList_append, List.mem_append] at hc
  exact hc.elim (ht c) (hu c)

/-- How an inert character changes the way in which the next one is read. -/
def Mode.next : Mode → Mode
  | .plain => .plain
  | .hidden => .plain
  | .quoted => .quoted
  | .quotedHidden => .quoted

theorem Mode.next_next (m : Mode) : m.next.next = m.next := by cases m <;> rfl

namespace Scan

theorem step_of_inert {c : Char} (hc : role c = .inert) (s : Scan) :
    s.step c = some { s with mode := s.mode.next } := by
  rcases s with ⟨_ | _ | _ | _, opened, braces⟩ <;> simp [step, hc, Mode.next]

theorem read_of_inert {cs : List Char} (hcs : ∀ c ∈ cs, role c = .inert) {s : Scan}
    (hs : s.mode.next = s.mode) : s.read cs = some s := by
  induction cs with
  | nil => rfl
  | cons c cs ih =>
    obtain ⟨hc, hcs⟩ := List.forall_mem_cons.1 hcs
    rw [read_cons, step_of_inert hc, hs]
    exact ih hcs

/-- If inert characters lead back to plain text, then so does any one inert character. -/
theorem step_of_read_inert {cs : List Char} (hcs : ∀ c ∈ cs, role c = .inert) {s s' : Scan}
    (h : s.read cs = some s') (hs' : s'.mode = .plain) {c : Char} (hc : role c = .inert) :
    s.step c = some s' := by
  induction cs generalizing s with
  | nil =>
    cases h
    rw [step_of_inert hc, hs', Mode.next, ← hs']
  | cons d cs ih =>
    obtain ⟨hd, hcs⟩ := List.forall_mem_cons.1 hcs
    rw [read_cons, step_of_inert hd] at h
    have hstep := ih hcs h
    rw [step_of_inert hc, Mode.next_next] at hstep
    rw [step_of_inert hc, hstep]

end Scan

theorem IsInert.contained {t : String} (h : IsInert t) : Contained t [] :=
  Scan.read_of_inert h rfl

/-! ## Texts on lines of their own -/

/-- Texts turn the open brackets `before` into `after` one after another. -/
inductive ReadsAll : List Char → List String → List Char → List Brace → Prop
  | nil (opened : List Char) : ReadsAll opened [] opened []
  | cons {before middle after : List Char} {t : String} {ts : List String} {bs cs : List Brace} :
    Reads before t middle bs → ReadsAll middle ts after cs →
      ReadsAll before (t :: ts) after (bs ++ cs)

namespace ReadsAll

variable {before middle after : List Char} {ts us : List String} {bs cs : List Brace}

theorem single {t : String} (h : Reads before t after bs) : ReadsAll before [t] after bs := by
  simpa using ReadsAll.cons h (.nil after)

theorem append (h : ReadsAll before ts middle bs) (h' : ReadsAll middle us after cs) :
    ReadsAll before (ts ++ us) after (bs ++ cs) := by
  induction h with
  | nil => exact h'
  | cons ht _ ih =>
    rw [List.append_assoc]
    exact .cons ht (ih h')

/-- Empty texts can be left out. -/
theorem filter (h : ReadsAll before ts after bs) :
    ReadsAll before (ts.filter fun t => t ≠ "") after bs := by
  induction h with
  | nil opened => exact .nil opened
  | @cons before middle after t ts bs cs ht _ ih =>
    by_cases hne : t = ""
    · subst hne
      cases ht
      simpa using ih
    · rw [List.filter_cons_of_pos (by simpa using hne)]
      exact .cons ht ih

/-- What joins the lines changes nothing if it has no special characters. -/
theorem intercalate {b : String} (hb : IsInert b) (h : ReadsAll before ts after bs) :
    Reads before (b.intercalate ts) after bs := by
  induction h with
  | nil opened => exact (by decide : Contained "" []).inside opened
  | @cons before middle after t ts bs cs ht hts ih =>
    cases ts with
    | nil =>
      cases hts
      rwa [String.intercalate_singleton, List.append_nil]
    | cons u us =>
      rw [String.intercalate_cons_cons]
      have hb' := hb.contained.inside middle
      simpa using (ht.append hb').append ih

end ReadsAll

/-! ## Trimmed texts -/

/-- Trimming cuts off blanks at both ends and nothing else. -/
theorem exists_eq_append_trimChars (cs : List Char) :
    ∃ ls rs, cs = ls ++ Text.trimChars cs ++ rs ∧ (∀ c ∈ ls, Text.isBlank c = true) ∧
      ∀ c ∈ rs, Text.isBlank c = true := by
  have hall : ∀ ds : List Char, ∀ c ∈ ds.takeWhile Text.isBlank, Text.isBlank c = true :=
    fun ds => List.all_eq_true.1 List.all_takeWhile
  refine ⟨cs.takeWhile Text.isBlank,
    ((cs.dropWhile Text.isBlank).reverse.takeWhile Text.isBlank).reverse, ?_, hall cs, ?_⟩
  · rw [Text.trimChars, List.append_assoc, ← List.reverse_append,
      List.takeWhile_append_dropWhile, List.reverse_reverse, List.takeWhile_append_dropWhile]
  · intro c hc
    exact hall _ c (List.mem_reverse.1 hc)

/-- Trimming may cut off the blank that a backslash hides, and no other part of what is contained.
The backslash then hides the start of what follows, which has to be inert. -/
theorem Contained.trim_append {t u : String} {bs : List Brace} (h : Contained t bs)
    (hu : IsInert u) (hne : u ≠ "") : Contained (Text.trim t ++ u) bs := by
  obtain ⟨ls, rs, ht, hls, hrs⟩ := exists_eq_append_trimChars t.toList
  have hls' : ∀ c ∈ ls, role c = .inert := fun c hc => role_of_isBlank (hls c hc)
  have hrs' : ∀ c ∈ rs, role c = .inert := fun c hc => role_of_isBlank (hrs c hc)
  rw [Contained, Reads, ht, List.append_assoc, Scan.read_append, Scan.read_of_inert hls' rfl,
    Option.bind_some, Scan.read_append] at h
  obtain ⟨s, hs, h⟩ := Option.bind_eq_some_iff.1 h
  cases hcs : u.toList with
  | nil => exact absurd (String.toList_eq_nil_iff.1 hcs) hne
  | cons c cs =>
    rw [IsInert, hcs] at hu
    obtain ⟨hc, hcs'⟩ := List.forall_mem_cons.1 hu
    rw [Contained, Reads, String.toList_append, Text.toList_trim, Scan.read_append, hs,
      Option.bind_some, hcs, Scan.read_cons, Scan.step_of_read_inert hrs' h rfl hc]
    exact Scan.read_of_inert hcs' rfl

/-! ## Escaped texts -/

theorem Scan.read_flatMap {f : Char → List Char} {s : Scan} (h : ∀ c, s.read (f c) = some s)
    (cs : List Char) : s.read (cs.flatMap f) = some s := by
  induction cs with
  | nil => rfl
  | cons c cs ih =>
    rw [List.flatMap_cons, Scan.read_append, h c]
    exact ih

namespace Escape

theorem Identifier.read_escapeChar (c : Char) : ({} : Scan).read (escapeChar c) = some {} := by
  unfold escapeChar
  split
  · rfl
  · have hdigits : ∀ d ∈ Text.hexDigits 6 c.toNat, role d = .inert := fun d hd =>
      role_of_any_specials (by decide) (Text.isHexDigit_of_mem_hexDigits hd)
    have hlength := Text.length_hexDigits 6 c.toNat
    cases hds : Text.hexDigits 6 c.toNat with
    | nil =>
      rw [hds] at hlength
      cases hlength
    | cons d ds =>
      -- The backslash hides the first digit, the others are as inert as they look.
      rw [hds] at hdigits
      exact Scan.read_of_inert (s := {}) (List.forall_mem_cons.1 hdigits).2 rfl

theorem Identifier.read_encodeChar (c : Char) : ({} : Scan).read (encodeChar c) = some {} := by
  unfold encodeChar
  split
  case isTrue hc =>
    have hc' : role c = .inert := role_of_any_specials (by decide) hc
    exact Scan.read_of_inert (List.forall_mem_singleton.2 hc') rfl
  case isFalse => exact read_escapeChar c

/-- Every name is contained in its identifier. -/
theorem contained_identifier (s : String) : Contained (Identifier.escape s) [] := by
  rw [Contained, Reads, Identifier.toList_escape]
  cases s.toList with
  | nil => rfl
  | cons c cs =>
    rw [Identifier.encode, Scan.read_append]
    have hc : ({} : Scan).read
        (if Identifier.isBadStart c cs then Identifier.escapeChar c else Identifier.encodeChar c) =
          some {} := by
      split
      · exact Identifier.read_escapeChar c
      · exact Identifier.read_encodeChar c
    rw [hc]
    exact Scan.read_flatMap Identifier.read_encodeChar cs

theorem Quoted.read_encodeChar (c : Char) :
    ({ mode := .quoted } : Scan).read (encodeChar c) = some { mode := .quoted } := by
  have hescapes : ∀ e ∈ escapes, ({ mode := .quoted } : Scan).read e.2.toList =
      some { mode := .quoted } := by decide
  rcases encodeChar_cases c with ⟨e, he, heq⟩ | ⟨hne, heq⟩
  · rw [heq]
    exact hescapes (c, e) he
  · -- A character without an escape neither hides the next one nor ends the string.
    have hbackslash : c ≠ '\\' := hne ('\\', "\\\\") (by decide)
    have hquote : c ≠ '"' := hne ('"', "\\\"") (by decide)
    have hstep : ({ mode := .quoted } : Scan).step c = some { mode := .quoted } := by
      rw [Scan.step]
      cases hr : role c with
      | backslash => exact absurd (role_eq_backslash hr) hbackslash
      | quote => exact absurd (role_eq_quote hr) hquote
      | _ => rfl
    rw [heq, Scan.read_cons, hstep]
    rfl

/-- Every text is contained in its string. -/
theorem contained_quoted (s : String) : Contained ("\"" ++ Quoted.escape s ++ "\"") [] := by
  have hs : ({ mode := .quoted } : Scan).read (Quoted.escape s).toList =
      some { mode := .quoted } := by
    rw [Quoted.toList_escape]
    exact Scan.read_flatMap Quoted.read_encodeChar s.toList
  rw [Contained, Reads, String.toList_append, String.toList_append, Scan.read_append,
    Scan.read_append]
  have hstart : (⟨.plain, [], []⟩ : Scan).read "\"".toList = some { mode := .quoted } := rfl
  rw [hstart, Option.bind_some, hs]
  rfl

end Escape

/-! ## Numerals -/

namespace Numeral

theorem isInert_ofNat (n : Nat) : IsInert (ofNat n) := by
  intro c hc
  rw [ofNat, String.toList_ofList] at hc
  exact role_of_isDigit (Nat.isDigit_of_mem_toDigits (by decide) (by decide) hc)

theorem isInert_ofInt (n : Int) : IsInert (ofInt n) := by
  unfold ofInt
  split
  · exact IsInert.append (by decide) (isInert_ofNat _)
  · exact isInert_ofNat _

/-- The characters that the text of a decimal is made of. -/
def isDecimalChar (c : Char) : Bool := c.isDigit || c == '.' || c == 'e' || c == '+' || c == '-'

theorem isDecimalChar_of_mem_toDigits {n : Nat} {c : Char} (h : c ∈ Nat.toDigits 10 n) :
    isDecimalChar c = true := by
  have := Nat.isDigit_of_mem_toDigits (by decide) (by decide) h
  simp [isDecimalChar, this]

theorem mem_of_mem_significant {ds : List Char} {c : Char} (h : c ∈ significant ds) : c ∈ ds := by
  cases ds with
  | nil => exact h
  | cons d ds =>
    rw [significant, List.mem_cons, List.mem_reverse] at h
    rcases h with rfl | h
    · exact List.mem_cons_self
    · exact List.mem_cons_of_mem d (List.mem_reverse.1 ((List.dropWhile_sublist _).subset h))

section

variable {ds : List Char} (hds : ∀ c ∈ ds, isDecimalChar c = true) (power : Int)

include hds

theorem isDecimalChar_of_mem_positional : ∀ c ∈ positional ds power, isDecimalChar c = true := by
  have hzeros : ∀ n, ∀ c ∈ List.replicate n '0', isDecimalChar c = true := by
    intro n c hc
    rw [List.eq_of_mem_replicate hc]
    decide
  unfold positional
  split
  · refine List.forall_mem_append.2 ⟨?_, hds⟩
    exact List.forall_mem_cons.2 ⟨by decide, List.forall_mem_cons.2 ⟨by decide, hzeros _⟩⟩
  · dsimp only
    split
    · refine List.forall_mem_append.2 ⟨List.forall_mem_append.2 ⟨hds, hzeros _⟩, ?_⟩
      exact List.forall_mem_cons.2 ⟨by decide, List.forall_mem_singleton.2 (by decide)⟩
    · refine List.forall_mem_append.2 ⟨fun c hc => hds c (List.mem_of_mem_take hc), ?_⟩
      exact List.forall_mem_cons.2 ⟨by decide, fun c hc => hds c (List.mem_of_mem_drop hc)⟩

theorem isDecimalChar_of_mem_exponential : ∀ c ∈ exponential ds power, isDecimalChar c = true := by
  have hexponent : ∀ c ∈ 'e' :: exponent power, isDecimalChar c = true := by
    have hdigits : ∀ c ∈ Nat.toDigits 10 power.natAbs, isDecimalChar c = true :=
      fun c => isDecimalChar_of_mem_toDigits
    refine List.forall_mem_cons.2 ⟨by decide, List.forall_mem_cons.2 ⟨?_, ?_⟩⟩
    · split <;> decide
    · split
      · exact List.forall_mem_cons.2 ⟨by decide, hdigits⟩
      · exact hdigits
  rcases ds with _ | ⟨d, _ | ⟨e, ds⟩⟩
  · exact nofun
  · exact List.forall_mem_cons.2 ⟨hds d List.mem_cons_self, hexponent⟩
  · obtain ⟨hd, hds⟩ := List.forall_mem_cons.1 hds
    have hpoint : ∀ c ∈ '.' :: e :: ds, isDecimalChar c = true :=
      List.forall_mem_cons.2 ⟨by decide, hds⟩
    exact List.forall_mem_append.2 ⟨List.forall_mem_cons.2 ⟨hd, hpoint⟩, hexponent⟩

end

theorem isInert_ofDouble (x : Number.Double) : IsInert (ofDouble x) := by
  cases x with
  | finite negative x =>
    refine IsInert.append (by cases negative <;> decide) fun c hc => ?_
    rw [String.toList_ofList, ofDecimal] at hc
    have hds : ∀ d ∈ significant (Nat.toDigits 10 x.shortest.digits), isDecimalChar d = true :=
      fun d hd => isDecimalChar_of_mem_toDigits (mem_of_mem_significant hd)
    refine role_of_any_specials (p := isDecimalChar) (by decide) ?_
    split at hc
    · exact isDecimalChar_of_mem_positional hds _ c hc
    · exact isDecimalChar_of_mem_exponential hds _ c hc
  | infinite negative => cases negative <;> decide
  | nan payload => exact show IsInert "nan" by decide

theorem isInert_quantity (x : Number.Double) : IsInert (quantity x) := by
  unfold quantity
  split
  · exact isInert_ofInt _
  · exact isInert_ofDouble x

end Numeral

end Stylesheet
