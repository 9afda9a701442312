import Newswire.Json.Draft

/-!
# Reading documents from text

A text is cut into tokens (`Token.list`) and the tokens are laid out as a draft by a machine with
a stack of open arrays and objects (`Draft.build`).  Numbers with neither point nor exponent are
integers while they are in range; all others are doubles, computed from the first digits that fit
64 bits by one multiplication or division by a power of ten (`Number.ofParts?`).
-/

namespace Newswire

/-! ### Numbers -/

/-- Digits collected in 64 bits: the number so far, and whether a digit did not fit any more. -/
structure Significand where
  /-- The number that the collected digits denote. -/
  value : Nat
  /-- How many digits were collected. -/
  count : Nat
  /-- A digit did not fit. -/
  full : Bool

/-- Collect one more digit, unless one before it did not fit. -/
def Significand.push (s : Significand) (c : Char) : Significand :=
  let value := s.value * 10 + (c.toNat - '0'.toNat)
  if s.full || Text.unsignedBound ≤ value then { s with full := true }
  else ⟨value, s.count + 1, false⟩

/-- Divide by powers of ten of at most 308 until the exponent is used up or nothing is left. -/
def Double.scaleDown (d : Double) (n : Nat) : Double :=
  if n ≤ 308 then d.overPower n
  else if d.units = 0 then d
  else scaleDown (d.overPower 308) (n - 308)
termination_by n

/-- The double computed from 64 bits of digits and a power of ten, if it is in range. -/
def Double.ofParts? (negative : Bool) (significand : Nat) (exponent : Int) : Option Double :=
  let d : Double := ⟨negative, (Double.ofInt significand).units⟩
  if exponent < 0 then some (d.scaleDown exponent.natAbs)
  else if exponent ≤ 308 then d.timesPower? exponent.toNat
  else if significand = 0 then some d
  else none

/-- The number that decimal notation denotes, if it is in range.  `exponent` is missing when none
is written, `fraction` when there is no point. -/
def Number.ofParts? (negative : Bool) (whole : List Char) (fraction : Option (List Char))
    (exponent : Option Int) : Option Number :=
  let significand := whole.foldl Significand.push ⟨0, 0, false⟩
  let dropped : Int := whole.length - significand.count
  match fraction, exponent with
  | none, none =>
    let n := significand.value
    if significand.full then (Double.ofParts? negative n dropped).map .real
    else if !negative then some (.int n)
    else if 0 < n ∧ n ≤ Text.signedBound then some (.int (-n))
    else some (.real ⟨true, (Double.ofInt n).units⟩)
  | _, _ =>
    let digits := (fraction.getD []).foldl Significand.push
      { significand with count := 0, full := false }
    (Double.ofParts? negative digits.value (dropped - digits.count + exponent.getD 0)).map .real

/-! ### Tokens -/

/-- The smallest readable parts of a text. -/
inductive Token where
  /-- `[` -/
  | openArr
  /-- `]` -/
  | closeArr
  /-- An opening brace. -/
  | openObj
  /-- A closing brace. -/
  | closeObj
  /-- `:` -/
  | colon
  /-- `,` -/
  | comma
  /-- A text in quotes, missing if it denotes none, or what is wrong with it. -/
  | quoted (s : Except Flaw (Option String))
  /-- Any other value that is neither array nor object, or what stands there instead. -/
  | scalar (d : Draft)

namespace Token

/-- Blanks between tokens. -/
def isSpace (c : Char) : Bool := c == ' ' || c == '\n' || c == '\t' || c == '\r'

/-- The code unit that four hexadecimal digits write. -/
def codeUnit? (a b c d : Char) : Option Nat := Text.natOfHex? [a, b, c, d]

/-- What is wrong when no four hexadecimal digits follow: too little text or the wrong one. -/
def codeFault (rest : List Char) : Fault :=
  if (String.ofList (rest.take 4)).utf8ByteSize < 4 then .unfinished else .malformed

/-- The character that a backslash and `c` write. -/
def simpleEscape? (c : Char) : Option Char :=
  match c with
  | '"' => some '"'
  | '\\' => some '\\'
  | '/' => some '/'
  | 'b' => some '\x08'
  | 'f' => some '\x0c'
  | 'n' => some '\n'
  | 'r' => some '\r'
  | 't' => some '\t'
  | _ => none

/-- The flaw of a text in quotes.  Half of a surrogate pair that stood alone before is in the way of
a reader that wants the text; who passes over it comes to the fault behind. -/
def quotedFlaw (done : Option (List Char)) (f : Fault) : Flaw :=
  match done with
  | some _ => f.plain
  | none => ⟨.malformed, f, .malformed⟩

/-- The rest of a text in quotes.  `done` holds the characters so far in reverse order and is
missing once half of a surrogate pair stood alone. -/
def quotedRest (done : Option (List Char)) : List Char → Except Flaw (Option String) × List Char
  | [] => (.error (quotedFlaw done .unfinished), [])
  | '"' :: rest => (.ok (done.map fun cs => String.ofList cs.reverse), rest)
  | '\\' :: 'u' :: a :: b :: c :: d :: rest =>
    match codeUnit? a b c d with
    | none => (.error (quotedFlaw done (codeFault (a :: b :: c :: d :: rest))), rest)
    | some high =>
      if high < 0xD800 ∨ 0xE000 ≤ high then
        quotedRest (done.map (Char.ofNat high :: ·)) rest
      else if 0xDC00 ≤ high then quotedRest none rest
      else match rest with
        | [] => (.error (quotedFlaw done .unfinished), [])
        | '\\' :: [] => (.error (quotedFlaw done .unfinished), [])
        | '\\' :: 'u' :: e :: f :: g :: h :: rest' =>
          match codeUnit? e f g h with
          | none => (.error (quotedFlaw done (codeFault (e :: f :: g :: h :: rest'))), rest')
          | some low =>
            if 0xDC00 ≤ low ∧ low < 0xE000 then
              let code := 0x10000 + (high - 0xD800) * 0x400 + (low - 0xDC00)
              quotedRest (done.map (Char.ofNat code :: ·)) rest'
            else quotedRest none rest'
        | '\\' :: 'u' :: more => (.error (quotedFlaw done (codeFault more)), [])
        | c :: rest' => quotedRest none (c :: rest')
  | '\\' :: 'u' :: more => (.error (quotedFlaw done (codeFault more)), [])
  | '\\' :: c :: rest =>
    match simpleEscape? c with
    | some x => quotedRest (done.map (x :: ·)) rest
    | none => (.error (quotedFlaw done .malformed), rest)
  | '\\' :: [] => (.error (quotedFlaw done .unfinished), [])
  | c :: rest =>
    if c.toNat < 0x20 then (.error (quotedFlaw done .malformed), rest)
    else quotedRest (done.map (c :: ·)) rest
termination_by cs => cs.length

/-- The word `word` has to come next. -/
def word (d : Draft) : List Char → List Char → Draft × List Char
  | [], rest => (d, rest)
  | _ :: _, [] => (.fault ⟨.unfinished, .unfinished, .malformed⟩, [])
  | c :: cs, x :: rest =>
    if c = x then word d cs rest else (.fault (Fault.plain .malformed), rest)

/-- What is wrong when a digit has to come next.  Only who wants the number finds it unfinished. -/
def digitFlaw (rest : List Char) : Flaw :=
  ⟨if rest.isEmpty then .unfinished else .malformed, .malformed, .malformed⟩

/-- The exponent after `e`, or what is wrong with it, and the rest of the text. -/
def exponent (cs : List Char) : Except Flaw Int × List Char :=
  let (negative, digits) := match cs with
    | '-' :: rest => (true, rest)
    | '+' :: rest => (false, rest)
    | _ => (false, cs)
  let run := digits.takeWhile Text.isDigit
  let rest := digits.dropWhile Text.isDigit
  if run.isEmpty then (.error (digitFlaw rest), rest)
  else
    let n : Int := Text.natOfDigits run
    (.ok (if negative then -n else n), rest)

/-- The part of a number from its exponent on. -/
def numberEnd (negative : Bool) (whole : List Char) (fraction : Option (List Char))
    (cs : List Char) : Draft × List Char :=
  let draft (e : Option Int) : Draft :=
    match Number.ofParts? negative whole fraction e with
    | some n => .num n
    | none => .unfit
  match cs with
  | 'e' :: rest | 'E' :: rest =>
    match exponent rest with
    | (.ok e, rest) => (draft (some e), rest)
    | (.error f, rest) => (.fault f, rest)
  | _ => (draft none, cs)

/-- The part of a number after its sign. -/
def unsignedNumber (negative : Bool) (cs : List Char) : Draft × List Char :=
  let whole := cs.takeWhile Text.isDigit
  let rest := cs.dropWhile Text.isDigit
  if whole.isEmpty then (.fault (digitFlaw rest), rest)
  else if whole.head? == some '0' && 1 < whole.length then
    (.fault (Fault.plain .malformed), rest)
  else match rest with
    | '.' :: more =>
      let fraction := more.takeWhile Text.isDigit
      let rest := more.dropWhile Text.isDigit
      if fraction.isEmpty then (.fault (digitFlaw rest), rest)
      else numberEnd negative whole (some fraction) rest
    | _ => numberEnd negative whole none rest

/-- The token that begins with `c`, and the text after it. -/
def first (c : Char) (rest : List Char) : Token × List Char :=
  let value (p : Draft × List Char) : Token × List Char := (.scalar p.1, p.2)
  match c with
  | '[' => (.openArr, rest)
  | ']' => (.closeArr, rest)
  | '\x7b' => (.openObj, rest)
  | '\x7d' => (.closeObj, rest)
  | ':' => (.colon, rest)
  | ',' => (.comma, rest)
  | '"' =>
    let (s, rest) := quotedRest (some []) rest
    (.quoted s, rest)
  | 'n' => value (word .null ['u', 'l', 'l'] rest)
  | 't' => value (word (.bool true) ['r', 'u', 'e'] rest)
  | 'f' => value (word (.bool false) ['a', 'l', 's', 'e'] rest)
  | '-' => value (unsignedNumber true rest)
  | _ =>
    if Text.isDigit c then value (unsignedNumber false (c :: rest))
    else (.scalar (.fault (Fault.plain .malformed)), rest)

theorem quotedRest_suffix (done : Option (List Char)) (cs : List Char) :
    (quotedRest done cs).2 <:+ cs := by
  fun_induction quotedRest done cs
  -- a text that ends too early, or in the middle of an escape
  case case1 | case6 | case7 | case11 | case13 | case16 => exact List.nil_suffix
  -- the closing quote, and a character that may not stand in a text
  case case2 | case17 => exact List.suffix_cons _ _
  case case18 ih => exact ih.trans (List.suffix_cons _ _)
  -- a backslash and one character
  case case14 ih => exact ih.trans ⟨[_, _], rfl⟩
  case case15 => exact ⟨[_, _], rfl⟩
  -- the code of one character, or of half a surrogate pair that stands alone
  case case3 => exact ⟨[_, _, _, _, _, _], rfl⟩
  case case4 ih | case5 ih | case12 ih => exact ih.trans ⟨[_, _, _, _, _, _], rfl⟩
  -- the codes of a surrogate pair
  case case8 => exact ⟨[_, _, _, _, _, _, _, _, _, _, _, _], rfl⟩
  case case9 ih | case10 ih =>
    exact ih.trans ⟨[_, _, _, _, _, _, _, _, _, _, _, _], rfl⟩

theorem word_suffix (d : Draft) (w cs : List Char) : (word d w cs).2 <:+ cs := by
  fun_induction word d w cs with
  | case1 rest => exact List.suffix_refl rest
  | case2 => exact List.nil_suffix
  | case3 _ x rest ih => exact ih.trans (List.suffix_cons x rest)
  | case4 _ _ x rest => exact List.suffix_cons x rest

theorem exponent_suffix (cs : List Char) : (exponent cs).2 <:+ cs := by
  unfold exponent
  split
  next negative digits hsign =>
    have hdigits : digits <:+ cs := by
      split at hsign
      · obtain ⟨-, rfl⟩ := Prod.mk.inj hsign
        exact List.suffix_cons _ _
      · obtain ⟨-, rfl⟩ := Prod.mk.inj hsign
        exact List.suffix_cons _ _
      · obtain ⟨-, rfl⟩ := Prod.mk.inj hsign
        exact List.suffix_refl _
    have hrest : digits.dropWhile Text.isDigit <:+ cs := (List.dropWhile_suffix _).trans hdigits
    dsimp only
    split
    · exact hrest
    · exact hrest

theorem numberEnd_suffix (negative : Bool) (whole : List Char) (fraction : Option (List Char))
    (cs : List Char) : (numberEnd negative whole fraction cs).2 <:+ cs := by
  unfold numberEnd
  dsimp only
  split
  · next rest =>
    have hrest := (exponent_suffix rest).trans (List.suffix_cons 'e' rest)
    split
    · next h => rwa [h] at hrest
    · next h => rwa [h] at hrest
  · next rest =>
    have hrest := (exponent_suffix rest).trans (List.suffix_cons 'E' rest)
    split
    · next h => rwa [h] at hrest
    · next h => rwa [h] at hrest
  · exact List.suffix_refl cs

theorem unsignedNumber_suffix (negative : Bool) (cs : List Char) :
    (unsignedNumber negative cs).2 <:+ cs.dropWhile Text.isDigit := by
  unfold unsignedNumber
  dsimp only
  split
  · exact List.suffix_refl _
  split
  · exact List.suffix_refl _
  split
  · next more hpoint =>
    have hmore : more.dropWhile Text.isDigit <:+ cs.dropWhile Text.isDigit :=
      hpoint ▸ (List.dropWhile_suffix _).trans (List.suffix_cons '.' more)
    split
    · exact hmore
    · exact (numberEnd_suffix _ _ _ _).trans hmore
  · exact numberEnd_suffix _ _ _ _

/-- What is left after a token is an end of the text. -/
theorem first_suffix (c : Char) (rest : List Char) : (first c rest).2 <:+ rest := by
  unfold first
  split
  case h_1 | h_2 | h_3 | h_4 | h_5 | h_6 => exact List.suffix_refl _
  case h_7 => exact quotedRest_suffix _ _
  case h_8 | h_9 | h_10 => exact word_suffix _ _ _
  case h_11 => exact (unsignedNumber_suffix _ _).trans (List.dropWhile_suffix _)
  case h_12 =>
    split
    · next hc =>
      have hrest := unsignedNumber_suffix false (c :: rest)
      rw [List.dropWhile_cons_of_pos hc] at hrest
      exact hrest.trans (List.dropWhile_suffix _)
    · exact List.suffix_refl _

/-- The tokens of a text. -/
def list : List Char → List Token
  | [] => []
  | c :: rest =>
    if isSpace c then list rest
    else
      have := (first_suffix c rest).length_le
      (first c rest).1 :: list (first c rest).2
termination_by cs => cs.length
decreasing_by all_goals (simp only [List.length_cons]; omega)

end Token

/-! ### Drafts -/

namespace Draft

/-- An array or object that is still open, with what it holds so far in reverse order. -/
inductive Frame where
  /-- An open array. -/
  | arr (done : List Draft)
  /-- An open object, and the key whose value is being read. -/
  | obj (done : List (Option String × Draft)) (key : Option String)

/-- What may come next. -/
inductive Place where
  /-- A value. -/
  | value
  /-- A value or the end of the array. -/
  | firstItem
  /-- A key or the end of the object. -/
  | firstKey
  /-- A key. -/
  | key
  /-- The colon after a key. -/
  | colon
  /-- A comma or the end of the array or object. -/
  | after

/-- The whole draft when a value ends inside open frames that nothing else follows in. -/
def plug (d : Draft) : List Frame → Draft
  | [] => d
  | .arr done :: frames => plug (.arr (d :: done).reverse none) frames
  | .obj done k :: frames => plug (.obj ((k, d) :: done).reverse none) frames

/-- The whole draft when a flaw stands where the innermost frame goes on or ends. -/
def stopAt (f : Flaw) : List Frame → Draft
  | [] => .fault f
  | .arr done :: frames => plug (.arr done.reverse (some f)) frames
  | .obj done _ :: frames => plug (.obj done.reverse (some f)) frames

/-- The frames after a value is complete, or the value itself when none is open. -/
def settle (d : Draft) : List Frame → Except Draft (List Frame)
  | [] => .error d
  | .arr done :: frames => .ok (.arr (d :: done) :: frames)
  | .obj done k :: frames => .ok (.obj ((k, d) :: done) none :: frames)

/-- What is wrong behind a comma in an object.  An object that stands for a choice has one key and
cannot go on with a comma. -/
def nextKeyFlaw (f : Flaw) : Flaw := { f with chosen := .malformed }

/-- Lay out the tokens that follow at a place inside open frames.  The second part of the result is
the fault after the document, if one follows. -/
def build : Place → List Frame → List Token → Draft × Option Fault
  | place, frames, [] =>
    match place with
    | .value | .colon => (plug (.fault (Fault.plain .unfinished)) frames, none)
    | .firstItem | .firstKey | .after => (stopAt (Fault.plain .unfinished) frames, none)
    | .key => (stopAt (nextKeyFlaw (Fault.plain .unfinished)) frames, none)
  | place, frames, t :: rest =>
    let complete (d : Draft) (frames : List Frame) : Draft × Option Fault :=
      match settle d frames with
      | .error d => (d, if rest.isEmpty then none else some .malformed)
      | .ok frames => build .after frames rest
    let readValue : Draft × Option Fault :=
      match t with
      | .openArr => build .firstItem (.arr [] :: frames) rest
      | .openObj => build .firstKey (.obj [] none :: frames) rest
      | .quoted (.ok (some s)) => complete (.str s) frames
      | .quoted (.ok none) => complete .unfit frames
      | .quoted (.error f) => (plug (.fault f) frames, none)
      | .scalar (.fault f) => (plug (.fault f) frames, none)
      | .scalar d => complete d frames
      | _ => (plug (.fault (Fault.plain .malformed)) frames, none)
    match place, t, frames with
    | .firstItem, .closeArr, .arr done :: frames
    | .after, .closeArr, .arr done :: frames => complete (.arr done.reverse none) frames
    | .value, _, _ | .firstItem, _, _ => readValue
    | .firstKey, .closeObj, .obj done _ :: frames
    | .after, .closeObj, .obj done _ :: frames => complete (.obj done.reverse none) frames
    | .firstKey, .quoted (.ok k), .obj done _ :: frames
    | .key, .quoted (.ok k), .obj done _ :: frames => build .colon (.obj done k :: frames) rest
    | .firstKey, .quoted (.error f), frames => (stopAt f frames, none)
    | .key, .quoted (.error f), frames => (stopAt (nextKeyFlaw f) frames, none)
    | .colon, .colon, frames => build .value frames rest
    | .colon, _, frames => (plug (.fault (Fault.plain .malformed)) frames, none)
    | .after, .comma, .arr done :: frames => build .value (.arr done :: frames) rest
    | .after, .comma, .obj done k :: frames => build .key (.obj done k :: frames) rest
    | _, _, frames => (stopAt (Fault.plain .malformed) frames, none)

/-- A text laid out, and the fault after the document, if one follows. -/
def ofText (text : String) : Draft × Option Fault := build .value [] (Token.list text.toList)

end Draft

/-- The document that a text writes; at most 127 arrays and objects may be open at one place. -/
def Json.ofText (text : String) : Except Fault Json := do
  let (draft, after) := Draft.ofText text
  let v ← draft.json (some 127)
  match after with
  | some f => throw f
  | none => return v

end Newswire
