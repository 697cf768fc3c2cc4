import AtomicCss.Proofs.Text.Delimiter
import AtomicCss.Proofs.Text.Nesting
import AtomicCss.Variant.Escape

/-!
# Characters that no backslash escapes

In a selector a backslash takes the meaning from the character behind it. What counts for the structure of a
stylesheet are the other characters, the *exposed* ones. Whether a character is exposed depends on what
stands in front of its text, so everything here is said for a reader that may come with an open backslash.

## The architecture

* **`exposed`**, **`escapes`** — what a reader meets in a text, and whether it leaves with an open backslash.
* **`leaks`** — the exposed delimiters of a text; `leaks_append` is the law of joining.
* **`Alike`** — two texts that no reader can tell apart by their leaks. Joining respects it, and the classes
  of any two tokens are alike (`alike_class`): an escaped token leaks nothing and closes what was open.
* **`Settled`** — a text whose exposed braces are balanced and behind which the reader starts afresh.
-/

namespace AtomicCss.Text

/-! ## Reading a text -/

/-- The characters of a text that no backslash in front of them escapes, the escaping backslashes left out.
The flag says whether a backslash in front of the whole text is still open. -/
def exposed : Bool → List Char → List Char
  | _, [] => []
  | true, _ :: cs => exposed false cs
  | false, c :: cs => if c = '\\' then exposed true cs else c :: exposed false cs

/-- Whether a backslash is still open behind a text. -/
def escapes : Bool → List Char → Bool
  | escaped, [] => escaped
  | true, _ :: cs => escapes false cs
  | false, c :: cs => escapes (c == '\\') cs

theorem exposed_cons {c : Char} (hc : c ≠ '\\') (cs : List Char) :
    exposed false (c :: cs) = c :: exposed false cs :=
  if_neg hc

theorem escapes_cons {c : Char} (hc : c ≠ '\\') (cs : List Char) :
    escapes false (c :: cs) = escapes false cs := by
  rw [escapes, beq_eq_false_iff_ne.2 hc]

/-- **Joined texts are read one after the other**, the second with what the first left open. -/
theorem exposed_append (s t : List Char) :
    ∀ e, exposed e (s ++ t) = exposed e s ++ exposed (escapes e s) t := by
  -- induction on the first, in either state
  induction s with
  | nil =>
    intro e
    cases e <;> rfl
  | cons c cs ih =>
    intro e
    cases e with
    | true => exact ih false
    | false =>
      by_cases hc : c = '\\'
      · subst hc
        exact ih true
      -- any other character is exposed and changes nothing
      · rw [List.cons_append, exposed_cons hc, exposed_cons hc, escapes_cons hc, ih, List.cons_append]

theorem escapes_append (s t : List Char) : ∀ e, escapes e (s ++ t) = escapes (escapes e s) t := by
  induction s with
  | nil =>
    intro e
    cases e <;> rfl
  | cons c cs ih =>
    intro e
    cases e with
    | true => exact ih false
    | false => exact ih (c == '\\')

/-- Reading invents no character. -/
theorem mem_of_mem_exposed {c : Char} (s : List Char) : ∀ {e}, c ∈ exposed e s → c ∈ s := by
  induction s with
  | nil =>
    intro e h
    cases e <;> cases h
  | cons d ds ih =>
    intro e h
    cases e with
    | true => exact List.mem_cons_of_mem _ (ih h)
    | false =>
      by_cases hd : d = '\\'
      · subst hd
        exact List.mem_cons_of_mem _ (ih (e := true) h)
      · rw [exposed_cons hd] at h
        rcases List.mem_cons.1 h with rfl | h
        · exact List.mem_cons_self ..
        · exact List.mem_cons_of_mem _ (ih h)

/-! ## Leaks -/

/-- The delimiters that a reader meets in a text. -/
def leaks (escaped : Bool) (s : List Char) : List Char :=
  (exposed escaped s).filter isDelimiter

theorem leaks_append (e : Bool) (s t : List Char) :
    leaks e (s ++ t) = leaks e s ++ leaks (escapes e s) t := by
  rw [leaks, exposed_append, List.filter_append, leaks, leaks]

/-- A text without delimiters leaks nothing, whatever was open. -/
theorem leaks_eq_nil {s : List Char} (h : s.any isDelimiter = false) (e : Bool) : leaks e s = [] := by
  rw [leaks, List.filter_eq_nil_iff]
  intro c hc
  exact List.any_eq_false.1 h c (mem_of_mem_exposed s hc)

theorem isDelimiter_of_leaks {s : List Char} {e : Bool} (h : leaks e s = []) :
    ∀ c ∈ exposed e s, isDelimiter c = false := fun c hc =>
  Bool.eq_false_iff.2 (List.filter_eq_nil_iff.1 h c hc)

/-! ## Texts that read alike -/

/-- Whatever is open in front of them, both texts leak the same and leave the same open. -/
def Alike (s t : List Char) : Prop :=
  ∀ e, leaks e s = leaks e t ∧ escapes e s = escapes e t

theorem Alike.refl (s : List Char) : Alike s s := fun _ => ⟨rfl, rfl⟩

theorem Alike.append {s s' t t' : List Char} (hs : Alike s s') (ht : Alike t t') :
    Alike (s ++ t) (s' ++ t') := by
  intro e
  obtain ⟨hleaks, hescapes⟩ := hs e
  -- the second text is read with what the first left open, the same on both sides
  obtain ⟨hleaks', hescapes'⟩ := ht (escapes e s')
  rw [leaks_append, leaks_append, escapes_append, escapes_append, hleaks, hescapes, hleaks', hescapes']
  exact ⟨rfl, rfl⟩

/-- Putting texts that are alike between the same pieces gives texts that are alike. -/
theorem Alike.intercalate {s s' : String} (h : Alike s.toList s'.toList) (pieces : List String) :
    Alike (s.intercalate pieces).toList (s'.intercalate pieces).toList := by
  induction pieces with
  | nil =>
    rw [String.intercalate_nil, String.intercalate_nil]
    exact .refl _
  | cons piece pieces ih =>
    cases pieces with
    | nil =>
      rw [String.intercalate_singleton, String.intercalate_singleton]
      exact .refl _
    | cons next rest =>
      rw [String.intercalate_cons_cons, String.intercalate_cons_cons]
      simp only [String.toList_append]
      exact ((Alike.refl _).append h).append ih

/-! ## Escaped tokens -/

/-- A character as it stands in a selector leaks nothing and leaves nothing open: a delimiter and a
backslash stand behind a backslash. -/
theorem leaks_escapeChar (c : Char) :
    leaks false (escapeChar c) = [] ∧ escapes false (escapeChar c) = false := by
  unfold escapeChar
  split
  · exact ⟨rfl, rfl⟩
  · rename_i hc
    have hbackslash : c ≠ '\\' := by
      rintro rfl
      exact hc (by decide)
    have hdelimiter : isDelimiter c = false := by
      -- delimiters are among the characters that are escaped
      cases hd : isDelimiter c with
      | false => rfl
      | true =>
        simp only [isDelimiter, Bool.or_eq_true, beq_iff_eq] at hd
        rcases hd with (rfl | rfl) | rfl <;> exact absurd (by decide) hc
    refine ⟨leaks_eq_nil ?_ false, escapes_cons hbackslash []⟩
    rw [List.any_cons, hdelimiter]
    rfl

/-- The rest of a token leaks nothing and leaves nothing open. -/
theorem leaks_flatMap_escapeChar (cs : List Char) :
    leaks false (cs.flatMap escapeChar) = [] ∧ escapes false (cs.flatMap escapeChar) = false := by
  induction cs with
  | nil => exact ⟨rfl, rfl⟩
  | cons c cs ih =>
    obtain ⟨hleaks, hescapes⟩ := leaks_escapeChar c
    rw [List.flatMap_cons, leaks_append, escapes_append, hleaks, hescapes]
    exact ih

/-- **An escaped token leaks nothing and leaves nothing open.** -/
theorem leaks_escape (token : String) :
    leaks false (escape token).toList = [] ∧ escapes false (escape token).toList = false := by
  rw [escape, String.toList_ofList]
  cases token.toList with
  | nil => exact ⟨rfl, rfl⟩
  | cons c cs =>
    rw [escapeChars, escapeFirst]
    obtain ⟨hrest, hclosed⟩ := leaks_flatMap_escapeChar cs
    split
    · -- a digit is a backslash with its code, and a space
      rename_i hdigit
      have hbackslash : c ≠ '\\' := by
        rintro rfl
        exact absurd hdigit (by decide)
      have hfirst : ['\\', '3', c, ' '].any isDelimiter = false := by
        simp only [List.any_cons, isDelimiter_of_isDigit hdigit]
        decide
      have hend : escapes false ['\\', '3', c, ' '] = false := by
        show escapes false [c, ' '] = false
        rw [escapes_cons hbackslash]
        rfl
      rw [leaks_append, escapes_append, leaks_eq_nil hfirst, hend]
      exact ⟨hrest, hclosed⟩
    · obtain ⟨hleaks, hescapes⟩ := leaks_escapeChar c
      rw [leaks_append, escapes_append, hleaks, hescapes]
      exact ⟨hrest, hclosed⟩

/-- A class leaks nothing and leaves nothing open, whatever was open in front of it. -/
theorem leaks_class (token : String) (e : Bool) :
    leaks e ("." ++ escape token).toList = [] ∧ escapes e ("." ++ escape token).toList = false := by
  obtain ⟨hleaks, hescapes⟩ := leaks_escape token
  -- the dot takes a backslash that is open in front of it
  have hdot : leaks e ".".toList = [] := leaks_eq_nil (by decide) e
  have hclosed : escapes e ".".toList = false := by cases e <;> decide
  rw [String.toList_append, leaks_append, escapes_append, hdot, hclosed]
  exact ⟨hleaks, hescapes⟩

/-- **The classes of any two tokens are alike.** The dot closes what was open, and the token leaks
nothing. -/
theorem alike_class (token token' : String) :
    Alike ("." ++ escape token).toList ("." ++ escape token').toList := by
  intro e
  obtain ⟨hleaks, hescapes⟩ := leaks_class token e
  obtain ⟨hleaks', hescapes'⟩ := leaks_class token' e
  exact ⟨hleaks.trans hleaks'.symm, hescapes.trans hescapes'.symm⟩

/-! ## Tight texts -/

/-- A reader who starts afresh leaves the text with nothing open. -/
def Complete (s : String) : Prop :=
  escapes false s.toList = false

/-- A reader who starts afresh meets no delimiter. -/
def Tight (s : String) : Prop :=
  leaks false s.toList = []

theorem tight_empty : Tight "" := rfl

theorem Complete.append {s t : String} (hs : Complete s) (ht : Complete t) : Complete (s ++ t) := by
  rw [Complete, String.toList_append, escapes_append, hs]
  exact ht

/-- Behind a complete text, what leaks is up to both sides. -/
theorem Complete.tight_append {s t : String} (hs : Complete s) : Tight (s ++ t) ↔ Tight s ∧ Tight t := by
  rw [Tight, String.toList_append, leaks_append, hs, List.append_eq_nil_iff]
  exact Iff.rfl

/-- Complete texts put between complete pieces. -/
theorem Complete.intercalate {s : String} (hs : Complete s) {pieces : List String}
    (h : ∀ piece ∈ pieces, Complete piece) : Complete (s.intercalate pieces) := by
  induction pieces with
  | nil =>
    rw [String.intercalate_nil]
    rfl
  | cons piece pieces ih =>
    have hpiece := h piece (List.mem_cons_self ..)
    have hrest := ih fun p hp => h p (List.mem_cons_of_mem _ hp)
    cases pieces with
    | nil => rwa [String.intercalate_singleton]
    | cons next rest =>
      rw [String.intercalate_cons_cons]
      exact (hpiece.append hs).append hrest

/-- What leaks from a text between two or more pieces is up to the text and the pieces. -/
theorem Complete.tight_intercalate {s : String} (hs : Complete s) {pieces : List String}
    (h : ∀ piece ∈ pieces, Complete piece) :
    Tight (s.intercalate pieces) ↔ (2 ≤ pieces.length → Tight s) ∧ ∀ piece ∈ pieces, Tight piece := by
  -- where there is one piece only, the text does not occur
  induction pieces with
  | nil =>
    rw [String.intercalate_nil]
    exact ⟨fun _ => ⟨fun hlength => absurd hlength (by decide), fun _ hp => by cases hp⟩, fun _ => rfl⟩
  | cons piece pieces ih =>
    have hpiece := h piece (List.mem_cons_self ..)
    have hrest := fun p hp => h p (List.mem_cons_of_mem _ hp)
    cases pieces with
    | nil => simp [String.intercalate_singleton]
    | cons next rest =>
      rw [String.intercalate_cons_cons, (hpiece.append hs).tight_append, hpiece.tight_append, ih hrest,
        List.forall_mem_cons (a := piece)]
      constructor
      · rintro ⟨⟨htight, htext⟩, -, hpieces⟩
        exact ⟨fun _ => htext, htight, hpieces⟩
      · rintro ⟨htext, htight, hpieces⟩
        have htext := htext (by simp)
        exact ⟨⟨htight, htext⟩, fun _ => htext, hpieces⟩

/-! ## Balanced braces -/

/-- The exposed braces of a text are balanced, and behind it a reader who started afresh is where it was. -/
def Settled (s : String) : Prop :=
  ∀ n rest, closes '\x7b' '\x7d' n (exposed false (s.toList ++ rest)) =
    closes '\x7b' '\x7d' n (exposed false rest)

/-- The text opens one block. -/
def Opens (s : String) : Prop :=
  ∀ n rest, closes '\x7b' '\x7d' n (exposed false (s.toList ++ rest)) =
    closes '\x7b' '\x7d' (n + 1) (exposed false rest)

/-- The text closes one block. -/
def Closes (s : String) : Prop :=
  ∀ n rest, closes '\x7b' '\x7d' (n + 1) (exposed false (s.toList ++ rest)) =
    closes '\x7b' '\x7d' n (exposed false rest)

/-- The text exposes no brace and closes a backslash that is open in front of it. -/
def Closing (s : String) : Prop :=
  ∀ e, (∀ c ∈ exposed e s.toList, c ≠ '\x7b' ∧ c ≠ '\x7d') ∧ escapes e s.toList = false

theorem Settled.closes {s : String} (h : Settled s) :
    closes '\x7b' '\x7d' 0 (exposed false s.toList) = true := by
  have hs := h 0 []
  rw [List.append_nil] at hs
  exact hs

theorem settled_empty : Settled "" := fun _ _ => rfl

theorem Settled.append {s t : String} (hs : Settled s) (ht : Settled t) : Settled (s ++ t) := by
  intro n rest
  rw [String.toList_append, List.append_assoc, hs, ht]

/-- Many settled texts can be joined. -/
theorem settled_join {l : List String} (h : ∀ s ∈ l, Settled s) : Settled (String.join l) := by
  induction l with
  | nil => exact settled_empty
  | cons s l ih =>
    rw [String.join_cons]
    exact (h s (List.mem_cons_self ..)).append (ih fun t ht => h t (List.mem_cons_of_mem _ ht))

/-- Many settled texts can be joined with a settled text between them. -/
theorem settled_intercalate {sep : String} (hsep : Settled sep) {l : List String}
    (h : ∀ s ∈ l, Settled s) : Settled (sep.intercalate l) := by
  induction l with
  | nil =>
    rw [String.intercalate_nil]
    exact settled_empty
  | cons s l ih =>
    have hs := h s (List.mem_cons_self ..)
    have hrest := ih fun t ht => h t (List.mem_cons_of_mem _ ht)
    cases l with
    | nil => rwa [String.intercalate_singleton]
    | cons t l =>
      rw [String.intercalate_cons_cons]
      exact (hs.append hsep).append hrest

/-- **A settled text in a block is settled.** -/
theorem Settled.nest {opener inner closer : String} (ho : Opens opener) (h : Settled inner)
    (hc : Closes closer) : Settled (opener ++ inner ++ closer) := by
  intro n rest
  rw [String.toList_append, String.toList_append, List.append_assoc, List.append_assoc, ho, h, hc]

theorem ne_brace_of_leaks {s : List Char} {e : Bool} (h : leaks e s = []) :
    ∀ c ∈ exposed e s, c ≠ '\x7b' ∧ c ≠ '\x7d' := by
  intro c hc
  have hdelimiter := isDelimiter_of_leaks h c hc
  constructor
  · rintro rfl
    exact absurd hdelimiter (by decide)
  · rintro rfl
    exact absurd hdelimiter (by decide)

/-- **A text that leaks nothing is settled once it is closed**, whatever it leaves open. -/
theorem settled_of_leaks {s t : String} (hs : leaks false s.toList = []) (ht : Closing t) :
    Settled (s ++ t) := by
  intro n rest
  obtain ⟨hbraces, hescapes⟩ := ht (escapes false s.toList)
  rw [String.toList_append, exposed_append, exposed_append, escapes_append, hescapes, List.append_assoc,
    closes_append (ne_brace_of_leaks hs), closes_append hbraces]

/-- A text without braces is closing if it leaves nothing open, whatever was open in front of it. -/
theorem Closing.of_all {s : String} (hbraces : (s.toList.all fun c => c != '\x7b' && c != '\x7d') = true)
    (hescapes : ∀ e, escapes e s.toList = false) : Closing s := by
  intro e
  refine ⟨fun c hc => ?_, hescapes e⟩
  have hc := List.all_eq_true.1 hbraces c (mem_of_mem_exposed _ hc)
  simpa using hc

theorem Closing.settled {t : String} (ht : Closing t) : Settled t := by
  have h := settled_of_leaks (s := "") rfl ht
  rwa [String.empty_append] at h

/-- A text that leaks nothing may stand in front of what opens a block, if that closes what is open
first. -/
theorem opens_of_leaks {s t : String} (hs : leaks false s.toList = [])
    (ht : ∀ e n rest, closes '\x7b' '\x7d' n (exposed e (t.toList ++ rest)) =
      closes '\x7b' '\x7d' (n + 1) (exposed false rest)) : Opens (s ++ t) := by
  intro n rest
  rw [String.toList_append, List.append_assoc, exposed_append, closes_append (ne_brace_of_leaks hs), ht]

end AtomicCss.Text
