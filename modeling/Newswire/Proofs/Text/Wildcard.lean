import Mathlib.Data.List.Infix
import Newswire.Proofs.Text.Literal
import Newswire.Text.Glob

/-!
# What wildcard patterns describe

A wildcard pattern is written as another pattern and that one is looked for.  What comes of it is
said here in three layers, each shown to agree with the one before:

* `Text.Glob.read`, `Text.Glob.follows` : the steps of a wildcard pattern, and the texts that follow
  them.  The pattern that is written is read back as these steps between the two anchors
  (`Text.Glob.read?_toPattern`), and is found where they are followed (`Text.Glob.found_anchored`).
* `Text.Glob.Describes` : how a whole text is cut along the pattern as it was written
  (`Text.Glob.follows_read_iff`).
* `Text.Glob.follows_open_eq_found`, `Text.Glob.follows_openStart_eq_found` : `*value*` describes
  the texts in which the value is found, and `*value` those at whose end it is found.
-/

namespace Newswire

namespace Text

/-- One step of a wildcard pattern. -/
inductive GlobStep where
  /-- Any stretch of characters, also none. -/
  | many
  /-- Any one character. -/
  | one
  /-- This character. -/
  | char (c : Char)

/-- A sequence of steps that a whole text has to follow. -/
abbrev Glob := List GlobStep

/-- What a step asks of a pattern. -/
def GlobStep.asPattern : GlobStep → PatternStep
  | many => .many true
  | one => .any true
  | char c => .char c

namespace Glob

/-- The steps of a wildcard pattern. -/
def read : List Char → Glob
  | [] => []
  | '\\' :: [] => []
  | '\\' :: c :: rest => .char c :: read rest
  | '*' :: rest => .many :: read rest
  | '?' :: rest => .one :: read rest
  | c :: rest => .char c :: read rest

/-- The whole text follows the steps. -/
def follows (same : Char → Char → Bool) : Glob → List Char → Bool
  | [], text => text.isEmpty
  | .many :: steps, text => text.tails.any (follows same steps)
  | _ :: _, [] => false
  | .one :: steps, _ :: text => follows same steps text
  | .char c :: steps, x :: text => same c x && follows same steps text

/-- The steps between the two ends of a text. -/
def anchored (steps : Glob) : Pattern := .start :: (steps.map GlobStep.asPattern ++ [.finish])

/-- The whole text can be cut along the written pattern. -/
inductive Describes (same : Char → Char → Bool) : List Char → List Char → Prop where
  /-- The pattern and the text end together. -/
  | done : Describes same [] []
  /-- `*` takes any stretch of the text, with whatever characters. -/
  | many {pattern text : List Char} (stretch : List Char) (h : Describes same pattern text) :
      Describes same ('*' :: pattern) (stretch ++ text)
  /-- `?` takes exactly one character. -/
  | one {pattern text : List Char} (x : Char) (h : Describes same pattern text) :
      Describes same ('?' :: pattern) (x :: text)
  /-- A backslash takes the character behind it literally. -/
  | literal {pattern text : List Char} {c x : Char} (hc : same c x = true)
      (h : Describes same pattern text) : Describes same ('\\' :: c :: pattern) (x :: text)
  /-- A backslash with nothing behind it takes nothing. -/
  | unfinished : Describes same ['\\'] []
  /-- Every other character takes itself. -/
  | char {pattern text : List Char} {c x : Char} (hplain : c ≠ '*' ∧ c ≠ '?' ∧ c ≠ '\\')
      (hc : same c x = true) (h : Describes same pattern text) :
      Describes same (c :: pattern) (x :: text)

variable {same : Char → Char → Bool} {steps : Glob} {pattern t : List Char}

/-! ### Wildcard patterns from the front -/

/-- A wildcard pattern begins with a star, a question mark, a backslash and what it escapes, or a
character that stands for itself. -/
theorem front_induction {motive : List Char → Prop} (done : motive []) (unfinished : motive ['\\'])
    (literal : ∀ c rest, motive rest → motive ('\\' :: c :: rest))
    (many : ∀ rest, motive rest → motive ('*' :: rest))
    (one : ∀ rest, motive rest → motive ('?' :: rest))
    (char : ∀ c rest, c ≠ '*' ∧ c ≠ '?' ∧ c ≠ '\\' → motive rest → motive (c :: rest))
    (pattern : List Char) : motive pattern := by
  fun_induction read pattern with
  | case1 => exact done
  | case2 => exact unfinished
  | case3 c rest ih => exact literal c rest ih
  | case4 rest ih => exact many rest ih
  | case5 rest ih => exact one rest ih
  | case6 c rest hlone hescaped hmany hone ih =>
    have hescape : c ≠ '\\' := by
      rintro rfl
      cases rest with
      | nil => exact hlone rfl rfl
      | cons d rest => exact hescaped d rest rfl rfl
    exact char c rest ⟨hmany, hone, hescape⟩ ih

theorem read_char {c : Char} (hplain : c ≠ '*' ∧ c ≠ '?' ∧ c ≠ '\\') (rest : List Char) :
    read (c :: rest) = .char c :: read rest := by
  obtain ⟨hmany, hone, hescape⟩ := hplain
  rw [read]
  · intro h; exact absurd h hescape
  · intro _ _ h; exact absurd h hescape
  · exact hmany
  · exact hone

theorem translate_char {c : Char} (hplain : c ≠ '*' ∧ c ≠ '?' ∧ c ≠ '\\') (rest : List Char) :
    translate (c :: rest) = Pattern.escape [c] ++ translate rest := by
  obtain ⟨hmany, hone, hescape⟩ := hplain
  rw [translate]
  · intro h; exact absurd h hescape
  · intro _ _ h; exact absurd h hescape
  · exact hmany
  · exact hone

/-! ### The pattern that is written -/

theorem head?_escape_append (c : Char) (rest : List Char) :
    (Pattern.escape [c] ++ rest).head? ≠ some '*' := by
  cases hm : Pattern.isMeta c with
  | true => simp [Pattern.escape, hm]
  | false =>
    have hc : c ≠ '*' := Pattern.ne_of_not_isMeta hm rfl
    simp [Pattern.escape, hm, hc]

/-- No star comes right after a step, so that a single dot is read as one. -/
theorem head?_translate_append (pattern : List Char) :
    (translate pattern ++ ['\\', 'z']).head? ≠ some '*' := by
  induction pattern using front_induction with
  | done => decide
  | unfinished => decide
  | literal c rest =>
    rw [translate, List.append_assoc]
    exact head?_escape_append c _
  | many rest => simp [translate]
  | one rest => simp [translate]
  | char c rest hplain =>
    rw [translate_char hplain, List.append_assoc]
    exact head?_escape_append c _

theorem readFrom?_translate (pattern : List Char) :
    Pattern.readFrom? true (translate pattern ++ ['\\', 'z']) =
      some ((read pattern).map GlobStep.asPattern ++ [.finish]) := by
  induction pattern using front_induction with
  | done => rfl
  | unfinished => rfl
  | literal c rest ih =>
    rw [translate, List.append_assoc, Pattern.readFrom?_escape_append, ih]
    rfl
  | many rest ih =>
    rw [translate, List.cons_append, List.cons_append, Pattern.readFrom?_many, ih, read]
    rfl
  | one rest ih =>
    rw [translate, List.cons_append, Pattern.readFrom?_any (head?_translate_append rest), ih, read]
    rfl
  | char c rest hplain ih =>
    rw [translate_char hplain, List.append_assoc, Pattern.readFrom?_escape_append, ih,
      read_char hplain]
    rfl

/-- The written pattern is read back, whatever the wildcard pattern. -/
theorem read?_toPattern (pattern : List Char) :
    Pattern.read? (toPattern pattern) = some (read pattern).anchored := by
  have hmark : Pattern.read? (toPattern pattern) =
      Pattern.readFrom? true ('^' :: (translate pattern ++ ['\\', 'z'])) := rfl
  rw [hmark, readFrom?_start, readFrom?_translate]
  rfl

/-! ### Texts that follow the steps -/

theorem follows_nil_iff : follows same [] t = true ↔ t = [] := by
  rw [follows, List.isEmpty_iff]

theorem follows_many_iff :
    follows same (.many :: steps) t = true ↔ ∃ a r, t = a ++ r ∧ follows same steps r = true := by
  simp only [follows, List.any_eq_true, List.mem_tails]
  constructor
  · rintro ⟨r, ⟨a, rfl⟩, h⟩; exact ⟨a, r, rfl, h⟩
  · rintro ⟨a, r, rfl, h⟩; exact ⟨r, ⟨a, rfl⟩, h⟩

theorem follows_one_iff :
    follows same (.one :: steps) t = true ↔ ∃ x r, t = x :: r ∧ follows same steps r = true := by
  cases t with
  | nil => simp [follows]
  | cons x t => simp [follows]

theorem follows_char_iff {c : Char} : follows same (.char c :: steps) t = true ↔
    ∃ x r, t = x :: r ∧ same c x = true ∧ follows same steps r = true := by
  cases t with
  | nil => simp [follows]
  | cons x t => simp [follows]

theorem onward_acrossLines_iff {isFound : Bool → List Char → Bool} {atStart : Bool} :
    Pattern.onward (Pattern.mayTake true) isFound atStart t = true ↔
      ∃ a r, t = a ++ r ∧ isFound (atStart && a.isEmpty) r = true := by
  simp [Pattern.onward_iff, Pattern.mayTake]

/-- The steps before the end of the text are found here iff the text follows them. -/
theorem foundHere_asPattern (steps : Glob) (atStart : Bool) (t : List Char) :
    Pattern.foundHere same (steps.map GlobStep.asPattern ++ [.finish]) atStart t =
      follows same steps t := by
  -- no step looks at the start of the text, which the stretches before it may have left
  induction steps generalizing atStart t with
  | nil => simp [Pattern.foundHere, follows]
  | cons step steps ih =>
    cases step with
    | many =>
      rw [Bool.eq_iff_iff, follows_many_iff, List.map_cons, List.cons_append]
      simp only [GlobStep.asPattern, Pattern.foundHere, onward_acrossLines_iff, ih]
    | one => cases t <;> simp [GlobStep.asPattern, Pattern.foundHere, Pattern.mayTake, follows, ih]
    | char c => cases t <;> simp [GlobStep.asPattern, Pattern.foundHere, follows, ih]

theorem found_anchored (ignoreCase : Bool) (steps : Glob) (text : String) :
    steps.anchored.found ignoreCase text = follows (Pattern.same ignoreCase) steps text.toList := by
  rw [Pattern.found_eq_foundFrom, Bool.eq_iff_iff, anchored, Pattern.foundFrom_start_iff,
    foundHere_asPattern]

/-! ### Texts that are cut along the pattern -/

theorem describes_of_follows {pattern t : List Char} (h : follows same (read pattern) t = true) :
    Describes same pattern t := by
  induction pattern using front_induction generalizing t with
  | done =>
    obtain rfl := follows_nil_iff.1 h
    exact .done
  | unfinished =>
    obtain rfl := follows_nil_iff.1 h
    exact .unfinished
  | literal c rest ih =>
    obtain ⟨x, r, rfl, hc, hr⟩ := follows_char_iff.1 h
    exact .literal hc (ih hr)
  | many rest ih =>
    rw [read] at h
    obtain ⟨a, r, rfl, hr⟩ := follows_many_iff.1 h
    exact .many a (ih hr)
  | one rest ih =>
    rw [read] at h
    obtain ⟨x, r, rfl, hr⟩ := follows_one_iff.1 h
    exact .one x (ih hr)
  | char c rest hplain ih =>
    rw [read_char hplain] at h
    obtain ⟨x, r, rfl, hc, hr⟩ := follows_char_iff.1 h
    exact .char hplain hc (ih hr)

theorem follows_of_describes (h : Describes same pattern t) :
    follows same (read pattern) t = true := by
  induction h with
  | done => rfl
  | many stretch _ ih =>
    rw [read]
    exact follows_many_iff.2 ⟨stretch, _, rfl, ih⟩
  | one x _ ih =>
    rw [read]
    exact follows_one_iff.2 ⟨x, _, rfl, ih⟩
  | literal hc _ ih => exact follows_char_iff.2 ⟨_, _, rfl, hc, ih⟩
  | unfinished => rfl
  | char hplain hc _ ih =>
    rw [read_char hplain]
    exact follows_char_iff.2 ⟨_, _, rfl, hc, ih⟩

/-- The texts that follow what is read from a pattern are those that the pattern describes. -/
theorem follows_read_iff : follows same (read pattern) t = true ↔ Describes same pattern t :=
  ⟨describes_of_follows, follows_of_describes⟩

/-! ### Escaped values -/

theorem read_escape_append (v rest : List Char) :
    read (escape v ++ rest) = v.map .char ++ read rest := by
  induction v with
  | nil => rfl
  | cons c v ih =>
    have hsplit : escape (c :: v) = (if isMeta c then ['\\', c] else [c]) ++ escape v := by
      simp [escape]
    rw [hsplit]
    cases hm : isMeta c with
    | true => simp [read, ih]
    | false =>
      simp only [isMeta, Bool.or_eq_false_iff, beq_eq_false_iff_ne] at hm
      simp only [Bool.false_eq_true, if_false, List.cons_append, List.nil_append, List.map_cons]
      rw [read_char ⟨hm.1.1, hm.1.2, hm.2⟩, ih]

theorem read_escape (v : List Char) : read (escape v) = v.map .char := by
  have h := read_escape_append v []
  simpa [read] using h

theorem follows_literal_append_iff (v : List Char) (steps : Glob) (t : List Char) :
    follows same (v.map .char ++ steps) t = true ↔
      ∃ p r, t = p ++ r ∧ Alike same v p ∧ follows same steps r = true := by
  induction v generalizing t with
  | nil => simp
  | cons c v ih =>
    cases t with
    | nil => simp [follows, alike_cons_iff]
    | cons x t =>
      simp only [List.map_cons, List.cons_append, follows, Bool.and_eq_true, ih]
      constructor
      · rintro ⟨hc, p, r, rfl, hp, hr⟩
        exact ⟨x :: p, r, rfl, List.Forall₂.cons hc hp, hr⟩
      · rintro ⟨p, r, ht, hp, hr⟩
        obtain ⟨y, s, hc, hs, rfl⟩ := alike_cons_iff.1 hp
        obtain ⟨rfl, rfl⟩ := List.cons.inj ht
        exact ⟨hc, s, r, rfl, hs, hr⟩

theorem follows_many_nil (t : List Char) : follows same [.many] t = true :=
  follows_many_iff.2 ⟨t, [], by simp, rfl⟩

/-- A value between two open ends describes the texts in which the value is found. -/
theorem follows_open_eq_found (v : List Char) (atStart : Bool) (t : List Char) :
    follows same (.many :: (v.map .char ++ [.many])) t =
      Pattern.foundFrom same (v.map .char) atStart t := by
  rw [Bool.eq_iff_iff, follows_many_iff, Pattern.foundFrom_literal_iff]
  simp only [follows_literal_append_iff, follows_many_nil, and_true]
  constructor
  · rintro ⟨a, _, rfl, p, r, rfl, hp⟩; exact ⟨a, p, r, rfl, hp⟩
  · rintro ⟨a, p, r, rfl, hp⟩; exact ⟨a, p ++ r, rfl, p, r, rfl, hp⟩

/-- A value after an open start describes the texts at whose end the value is found. -/
theorem follows_openStart_eq_found (v : List Char) (atStart : Bool) (t : List Char) :
    follows same (.many :: v.map .char) t =
      Pattern.foundFrom same (v.map .char ++ [.finish]) atStart t := by
  have h := fun r => @follows_literal_append_iff same v [] r
  simp only [List.append_nil, follows, List.isEmpty_iff] at h
  rw [Bool.eq_iff_iff, follows_many_iff, Pattern.foundFrom_literal_finish_iff]
  simp only [h]
  constructor
  · rintro ⟨a, _, rfl, p, _, rfl, hp, rfl⟩; exact ⟨a, p, by simp, hp⟩
  · rintro ⟨a, p, rfl, hp⟩; exact ⟨a, p, rfl, p, [], by simp, hp, rfl⟩

end Glob

end Text

end Newswire
