import Newswire.Text.CaseFold

/-!
# Patterns

A pattern is a sequence of characters, stretches and anchors that is looked for anywhere in a text.
It is written the way queries write it: characters stand for themselves, `.` for any character and
`.*` for any stretch, both within one line unless `(?s)` comes before them, `^` and `$` for the two
ends of the text, and a backslash takes the next punctuation character literally or names a
control character or an end.  All other notation is refused (`Pattern.read?` is `none`).

`Pattern.escape` writes any text so that it is read back literally (`Pattern.readFrom?_escape`).
`Pattern.foundHere` says what a pattern asks of a text by trying every length for every stretch;
`Pattern.found` decides it with one pass over the text for each step
(`Pattern.found_eq_foundFrom`).
-/

namespace Newswire

namespace Text

/-- One step of a pattern. -/
inductive PatternStep where
  /-- This character comes next. -/
  | char (c : Char)
  /-- Any character comes next; a line end only where stretches go across lines. -/
  | any (acrossLines : Bool)
  /-- Any stretch of such characters comes next, also none. -/
  | many (acrossLines : Bool)
  /-- The text begins here. -/
  | start
  /-- The text ends here. -/
  | finish
  deriving DecidableEq, Repr

/-- A sequence of steps to be found in a text. -/
abbrev Pattern := List PatternStep

namespace Pattern

/-- The characters with a meaning of their own in some pattern notation. -/
def isMeta (c : Char) : Bool :=
  ['\\', '.', '+', '*', '?', '(', ')', '|', '[', ']', '\x7b', '\x7d', '^', '$', '#', '&', '-',
    '~'].contains c

/-- The ASCII characters that a backslash makes literal: neither letters, digits nor `<` and `>`. -/
def isEscapable (c : Char) : Bool :=
  isMeta c || (c.toNat < 0x80 && !c.isAlphanum && c != '<' && c != '>')

/-- What a backslash and `c` stand for. -/
def escaped? (c : Char) : Option PatternStep :=
  match c with
  | 'z' => some .finish
  | 'A' => some .start
  | 'n' => some (.char '\n')
  | 't' => some (.char '\t')
  | 'r' => some (.char '\r')
  | _ => if isEscapable c then some (.char c) else none

/-- What `c` stands for when no backslash precedes it. -/
def plain? (acrossLines : Bool) (c : Char) : Option PatternStep :=
  match c with
  | '^' => some .start
  | '$' => some .finish
  | '.' => some (.any acrossLines)
  | '+' | '*' | '?' | '(' | ')' | '|' | '[' | '\x7b' => none
  | _ => some (.char c)

/-- The pattern that the rest of a text writes, if it writes one; `acrossLines` tells whether `(?s)`
came before. -/
def readFrom? (acrossLines : Bool) : List Char → Option Pattern
  | [] => some []
  | '\\' :: c :: rest => do
    let step ← escaped? c
    let steps ← readFrom? acrossLines rest
    return step :: steps
  | '\\' :: [] => none
  | '(' :: '?' :: 's' :: ')' :: rest => readFrom? true rest
  | '.' :: '*' :: rest => do
    let steps ← readFrom? acrossLines rest
    return .many acrossLines :: steps
  | c :: rest => do
    let step ← plain? acrossLines c
    let steps ← readFrom? acrossLines rest
    return step :: steps

/-- The pattern that a text writes, if it writes one. -/
def read? (cs : List Char) : Option Pattern := readFrom? false cs

/-- A text with a backslash before each character that has a meaning of its own. -/
def escape (cs : List Char) : List Char :=
  cs.flatMap fun c => if isMeta c then ['\\', c] else [c]

/-- A stretch may take this character. -/
def mayTake (acrossLines : Bool) (x : Char) : Bool := acrossLines || x != '\n'

/-- Something is found here, or further on with only characters that pass in between; `atStart`
tells whether the text begins here. -/
def onward (passes : Char → Bool) (isFound : Bool → List Char → Bool) (atStart : Bool) :
    List Char → Bool
  | [] => isFound atStart []
  | x :: text => isFound atStart (x :: text) || (passes x && onward passes isFound false text)

/-- The pattern is found exactly here. -/
def foundHere (same : Char → Char → Bool) : Pattern → Bool → List Char → Bool
  | [], _, _ => true
  | .start :: steps, atStart, text => atStart && foundHere same steps atStart text
  | .finish :: steps, atStart, text => text.isEmpty && foundHere same steps atStart text
  | .many acrossLines :: steps, atStart, text =>
    onward (mayTake acrossLines) (foundHere same steps) atStart text
  | .any acrossLines :: steps, _, x :: text =>
    mayTake acrossLines x && foundHere same steps false text
  | .char c :: steps, _, x :: text => same c x && foundHere same steps false text
  | .any _ :: _, _, [] => false
  | .char _ :: _, _, [] => false

/-- The pattern is found here or further on. -/
def foundFrom (same : Char → Char → Bool) (p : Pattern) : Bool → List Char → Bool :=
  onward (fun _ => true) (foundHere same p)

/-- What is said of each place in a text, the first place first and the end last. -/
def atPlaces (verdict : Bool → List Char → Bool) (atStart : Bool) : List Char → List Bool
  | [] => [verdict atStart []]
  | x :: text => verdict atStart (x :: text) :: atPlaces verdict false text

/-- The verdicts on all places of a text for one more step in front, from those without it. -/
def ahead (same : Char → Char → Bool) (step : PatternStep) (atStart : Bool) :
    List Char → List Bool → List Bool
  | _, [] => []
  | [], here :: _ =>
    [match step with
      | .char _ | .any _ => false
      | .start => atStart && here
      | .many _ | .finish => here]
  | x :: text, here :: next =>
    let further := ahead same step false text next
    (match step with
      | .char c => same c x && next.headD false
      | .any acrossLines => mayTake acrossLines x && next.headD false
      | .many acrossLines => here || (mayTake acrossLines x && further.headD false)
      | .start => atStart && here
      | .finish => false) :: further

/-- For each place in a text whether the pattern is found there.  This takes one pass over the text
for each step, however many stretches the pattern leaves open. -/
def verdicts (same : Char → Char → Bool) (text : List Char) : Pattern → List Bool
  | [] => atPlaces (fun _ _ => true) true text
  | step :: steps => ahead same step true text (verdicts same text steps)

/-- How two characters are compared. -/
def same (ignoreCase : Bool) (a b : Char) : Bool :=
  if ignoreCase then sameCaseless a b else a == b

/-- The pattern is found somewhere in the text. -/
def found (ignoreCase : Bool) (p : Pattern) (text : String) : Bool :=
  (verdicts (same ignoreCase) text.toList p).any id

/-! ### Reading what is written -/

/-- A character that neither a backslash, a mark nor a dot can be is read by itself. -/
theorem readFrom?_cons {c : Char} (hc : c ≠ '\\' ∧ c ≠ '(' ∧ c ≠ '.') (acrossLines : Bool)
    (rest : List Char) : readFrom? acrossLines (c :: rest) =
      (plain? acrossLines c).bind fun step => (readFrom? acrossLines rest).map (step :: ·) := by
  obtain ⟨hescape, hmark, hdot⟩ := hc
  rw [readFrom?]
  · cases plain? acrossLines c <;> cases readFrom? acrossLines rest <;> rfl
  · intro _ _ h; exact absurd h hescape
  · intro h; exact absurd h hescape
  · intro _ h; exact absurd h hmark
  · intro _ h; exact absurd h hdot

theorem readFrom?_many (acrossLines : Bool) (rest : List Char) :
    readFrom? acrossLines ('.' :: '*' :: rest) =
      (readFrom? acrossLines rest).map (.many acrossLines :: ·) := by
  rw [readFrom?]
  cases readFrom? acrossLines rest <;> rfl

theorem readFrom?_any {rest : List Char} (h : rest.head? ≠ some '*') (acrossLines : Bool) :
    readFrom? acrossLines ('.' :: rest) =
      (readFrom? acrossLines rest).map (.any acrossLines :: ·) := by
  rw [readFrom?]
  · cases readFrom? acrossLines rest <;> rfl
  · intro _ _ h; exact absurd h (by decide)
  · intro h; exact absurd h (by decide)
  · intro _ h; exact absurd h (by decide)
  · rintro rest - rfl; exact h rfl

theorem ne_of_not_isMeta {c d : Char} (hc : isMeta c = false) (hd : isMeta d = true) : c ≠ d := by
  rintro rfl
  exact Bool.false_ne_true (hc.symm.trans hd)

theorem escaped?_of_isMeta {c : Char} (h : isMeta c = true) : escaped? c = some (.char c) := by
  unfold escaped?
  split <;> simp_all [isEscapable, isMeta]

theorem plain?_of_not_isMeta {c : Char} (h : isMeta c = false) (acrossLines : Bool) :
    plain? acrossLines c = some (.char c) := by
  unfold plain?
  split <;> simp_all [isMeta]

theorem readFrom?_escape_append (acrossLines : Bool) (v rest : List Char) :
    readFrom? acrossLines (escape v ++ rest) =
      (readFrom? acrossLines rest).map (v.map .char ++ ·) := by
  induction v with
  | nil => simp [escape]
  | cons c v ih =>
    have hsplit : escape (c :: v) = (if isMeta c then ['\\', c] else [c]) ++ escape v := by
      simp [escape]
    rw [hsplit]
    cases hm : isMeta c with
    | true =>
      simp only [if_true, List.cons_append, List.nil_append, readFrom?, escaped?_of_isMeta hm, ih]
      cases readFrom? acrossLines rest <;> simp
    | false =>
      have hc : c ≠ '\\' ∧ c ≠ '(' ∧ c ≠ '.' :=
        ⟨ne_of_not_isMeta hm rfl, ne_of_not_isMeta hm rfl, ne_of_not_isMeta hm rfl⟩
      simp only [Bool.false_eq_true, if_false, List.cons_append, List.nil_append]
      rw [readFrom?_cons hc, plain?_of_not_isMeta hm, ih]
      cases readFrom? acrossLines rest <;> simp

theorem readFrom?_escape (acrossLines : Bool) (v : List Char) :
    readFrom? acrossLines (escape v) = some (v.map .char) := by
  have h := readFrom?_escape_append acrossLines v []
  simpa [readFrom?] using h

/-! ### One pass for each step -/

theorem headD_atPlaces (verdict : Bool → List Char → Bool) (atStart : Bool) (text : List Char) :
    (atPlaces verdict atStart text).headD false = verdict atStart text := by
  cases text <;> rfl

theorem any_atPlaces (verdict : Bool → List Char → Bool) (atStart : Bool) (text : List Char) :
    (atPlaces verdict atStart text).any id = onward (fun _ => true) verdict atStart text := by
  induction text generalizing atStart with
  | nil => simp [atPlaces, onward]
  | cons x text ih => simp [atPlaces, onward, ih]

/-- A pass over the text adds one step to the pattern. -/
theorem ahead_atPlaces (same : Char → Char → Bool) (step : PatternStep) (steps : Pattern)
    (atStart : Bool) (text : List Char) :
    ahead same step atStart text (atPlaces (foundHere same steps) atStart text) =
      atPlaces (foundHere same (step :: steps)) atStart text := by
  induction text generalizing atStart with
  | nil => cases step <;> simp [ahead, atPlaces, foundHere, onward]
  | cons x text ih =>
    simp only [atPlaces, ahead, ih, headD_atPlaces]
    cases step <;> simp [foundHere, onward]

/-- The verdicts are those of `foundHere`. -/
theorem verdicts_eq_atPlaces (same : Char → Char → Bool) (text : List Char) (p : Pattern) :
    verdicts same text p = atPlaces (foundHere same p) true text := by
  induction p with
  | nil =>
    have hnil : foundHere same [] = fun _ _ => true := by funext _ _; rw [foundHere]
    rw [verdicts, hnil]
  | cons step steps ih => rw [verdicts, ih, ahead_atPlaces]

theorem found_eq_foundFrom (ignoreCase : Bool) (p : Pattern) (text : String) :
    found ignoreCase p text = foundFrom (same ignoreCase) p true text.toList := by
  rw [found, verdicts_eq_atPlaces, any_atPlaces, foundFrom]

end Pattern

end Text

end Newswire
