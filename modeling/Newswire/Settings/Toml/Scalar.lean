import Newswire.Settings.Value
import Newswire.Timestamp

/-!
# Single values in TOML

Texts in four kinds of quotes, numbers, truth values, and dates and times, which are taken as
text.  Everything that is not quoted is first cut out as a word and then read as a whole.
-/

namespace Newswire

namespace Toml

/-- Blanks inside a line. -/
def isBlank (c : Char) : Bool := c == ' ' || c == '\t'

/-- Characters that may not stand in comments and texts. -/
def isControl (c : Char) : Bool := (c.toNat < 0x20 && c != '\t') || c.toNat == 0x7F

/-- Blanks and ends of lines, at the front of a text, taken away. -/
def dropSpace : List Char → List Char
  | [] => []
  | '\r' :: '\n' :: rest => dropSpace rest
  | c :: rest => if isBlank c || c == '\n' then dropSpace rest else c :: rest

theorem length_dropSpace_le (cs : List Char) : (dropSpace cs).length ≤ cs.length := by
  fun_induction dropSpace cs with
  | case1 => exact Nat.le_refl _
  | case2 rest ih => exact Nat.le_trans ih (Nat.le_add_right _ 2)
  | case3 c rest _ _ ih => exact Nat.le_succ_of_le ih
  | case4 => exact Nat.le_refl _

/-! ### Texts -/

/-- The character that a backslash and `c` write. -/
def simpleEscape? (c : Char) : Option Char :=
  match c with
  | 'b' => some '\x08'
  | 't' => some '\t'
  | 'n' => some '\n'
  | 'f' => some '\x0c'
  | 'r' => some '\r'
  | 'e' => some '\x1b'
  | '"' => some '"'
  | '\\' => some '\\'
  | _ => none

/-- How many hexadecimal digits follow a backslash and `c`. -/
def codeWidth? (c : Char) : Option Nat :=
  match c with
  | 'x' => some 2
  | 'u' => some 4
  | 'U' => some 8
  | _ => none

/-- The character with the code that hexadecimal digits write. -/
def charOfHex? (digits : List Char) (width : Nat) : Option Char :=
  if digits.length = width then
    (Text.natOfHex? digits).bind fun n => if n.isValidChar then some (Char.ofNat n) else none
  else none

/-- What a text may end with: three quotes, and up to two more that belong to the text. -/
def closing (quote : Char) (done rest : List Char) : String × List Char :=
  let extra := ((rest.take 2).takeWhile (· == quote))
  (String.ofList (done.reverse ++ extra), rest.drop extra.length)

/-- The rest of a text in double quotes; a text of several lines is in three of them.  `done` holds
the characters so far in reverse order. -/
def basicRest (long : Bool) (done : List Char) : List Char → Option (String × List Char)
  | [] => none
  | '"' :: rest =>
    if !long then some (String.ofList done.reverse, rest)
    else if rest.take 2 == ['"', '"'] then some (closing '"' done (rest.drop 2))
    else basicRest long ('"' :: done) rest
  | '\\' :: c :: rest =>
    match simpleEscape? c, codeWidth? c with
    | some x, _ => basicRest long (x :: done) rest
    | none, some width => match charOfHex? (rest.take width) width with
      | some x => basicRest long (x :: done) (rest.drop width)
      | none => none
    | none, none =>
      let afterBlanks := (c :: rest).dropWhile isBlank
      if long && (afterBlanks.head? == some '\n' || afterBlanks.take 2 == ['\r', '\n']) then
        basicRest long done (dropSpace (c :: rest))
      else none
  | '\r' :: '\n' :: rest => if long then basicRest long ('\n' :: '\r' :: done) rest else none
  | c :: rest =>
    if c = '\n' then if long then basicRest long (c :: done) rest else none
    else if isControl c then none
    else basicRest long (c :: done) rest
termination_by cs => cs.length
decreasing_by
  all_goals simp only [List.length_cons, List.length_drop]
  all_goals first
    | omega
    | exact Nat.lt_succ_of_le (length_dropSpace_le _)

/-- The rest of a text in single quotes, which has no escapes; a text of several lines is in three
of them. -/
def literalRest (long : Bool) (done : List Char) : List Char → Option (String × List Char)
  | [] => none
  | '\'' :: rest =>
    if !long then some (String.ofList done.reverse, rest)
    else if rest.take 2 == ['\'', '\''] then some (closing '\'' done (rest.drop 2))
    else literalRest long ('\'' :: done) rest
  | '\r' :: '\n' :: rest => if long then literalRest long ('\n' :: '\r' :: done) rest else none
  | c :: rest =>
    if c = '\n' then if long then literalRest long (c :: done) rest else none
    else if isControl c then none
    else literalRest long (c :: done) rest

/-- The end of a line directly after three opening quotes does not belong to the text. -/
def dropLineEnd (cs : List Char) : List Char :=
  match cs with
  | '\n' :: rest | '\r' :: '\n' :: rest => rest
  | _ => cs

/-- A quoted text and what follows it. -/
def quoted? (cs : List Char) : Option (String × List Char) :=
  match cs with
  | '"' :: '"' :: '"' :: rest => basicRest true [] (dropLineEnd rest)
  | '"' :: rest => basicRest false [] rest
  | '\'' :: '\'' :: '\'' :: rest => literalRest true [] (dropLineEnd rest)
  | '\'' :: rest => literalRest false [] rest
  | _ => none

/-! ### Numbers -/

/-- Digits with single underscores between them, without the underscores. -/
def grouped? (isDigit : Char → Bool) (cs : List Char) : Option (List Char) :=
  let groups := Text.pieces '_' cs
  if groups.all fun g => !g.isEmpty && g.all isDigit then some groups.flatten else none

/-- Decimal digits without needless zeros in front. -/
def decimal? (cs : List Char) : Option (List Char) :=
  (grouped? Text.isDigit cs).bind fun ds =>
    if ds.head? == some '0' && 1 < ds.length then none else some ds

/-- An integer from `-2 ^ 63` up to `2 ^ 63 - 1`. -/
def inRange? (i : Int) : Option Setting :=
  if -(Text.signedBound : Int) ≤ i ∧ i < Text.signedBound then some (.integer i) else none

/-- The number that digits of a base denote. -/
def ofBase (base : Nat) (digits : List Char) : Nat :=
  digits.foldl (fun n c => base * n + (Text.hexValue? c).getD 0) 0

/-- An integer in another base. -/
def basedInteger? (cs : List Char) : Option Setting :=
  let read (base : Nat) (digits : List Char) : Option Setting :=
    (grouped? (fun c => (Text.hexValue? c).any (· < base)) digits).bind fun ds =>
      inRange? (ofBase base ds)
  match cs with
  | '0' :: 'x' :: digits => read 16 digits
  | '0' :: 'o' :: digits => read 8 digits
  | '0' :: 'b' :: digits => read 2 digits
  | _ => none

/-- A decimal integer. -/
def integer? (cs : List Char) : Option Setting :=
  let (negative, rest) := Double.splitSign cs
  (decimal? rest).bind fun ds =>
    let n : Int := Text.natOfDigits ds
    inRange? (if negative then -n else n)

/-- The exponent of a number, which may have zeros in front. -/
def exponent? (cs : List Char) : Option Int :=
  let (negative, rest) := Double.splitSign cs
  (grouped? Text.isDigit rest).map fun ds =>
    let n : Int := Text.natOfDigits ds
    if negative then -n else n

/-- A number with a fraction or an exponent. -/
def real? (cs : List Char) : Option Setting := do
  let (negative, rest) := Double.splitSign cs
  match Extended.ofWord? negative (String.ofList rest) with
  | some x => if rest.length = 3 then some (.real x) else none
  | none =>
    let isPart (c : Char) : Bool := Text.isDigit c || c == '_'
    let whole ← decimal? (rest.takeWhile isPart)
    let afterWhole := rest.dropWhile isPart
    let (fraction, afterFraction) ← match afterWhole with
      | '.' :: more => (grouped? Text.isDigit (more.takeWhile isPart)).map fun ds =>
        (ds, more.dropWhile isPart)
      | _ => some ([], afterWhole)
    let exponent ← match afterFraction with
      | [] => if fraction.isEmpty then none else some 0
      | c :: more => if c = 'e' ∨ c = 'E' then exponent? more else none
    let d ← Double.ofDecimal? negative (Text.natOfDigits (whole ++ fraction))
      (exponent - fraction.length)
    return .real (.finite d)

/-! ### Dates and times -/

/-- A date in front of a text, and the rest. -/
def date? (cs : List Char) : Option (List Char × List Char) :=
  match cs with
  | y1 :: y2 :: y3 :: y4 :: '-' :: m1 :: m2 :: '-' :: d1 :: d2 :: rest =>
    let month := Text.natOfDigits [m1, m2]
    let day := Text.natOfDigits [d1, d2]
    if [y1, y2, y3, y4, m1, m2, d1, d2].all Text.isDigit && 1 ≤ month && month ≤ 12 && 1 ≤ day &&
        day ≤ Timestamp.daysInMonth (Text.natOfDigits [y1, y2, y3, y4]) month then
      some (cs.take 10, rest)
    else none
  | _ => none

/-- What follows the character `c` in front of a text. -/
def after? (c : Char) (cs : List Char) : Option (List Char) :=
  match cs with
  | x :: rest => if x = c then some rest else none
  | [] => none

/-- Two digits below a bound in front of a text, and the rest. -/
def below? (bound : Nat) (cs : List Char) : Option (List Char × List Char) :=
  match cs with
  | a :: b :: rest =>
    if Text.isDigit a && Text.isDigit b && Text.natOfDigits [a, b] < bound then
      some ([a, b], rest)
    else none
  | _ => none

/-- The fraction of a second in front of a text, written with at most nine digits and without zeros
at the end, and the rest.  Of nothing but zeros one is kept. -/
def secondFraction? (cs : List Char) : Option (List Char × List Char) :=
  match cs with
  | '.' :: rest =>
    let digits := rest.takeWhile Text.isDigit
    let kept := ((digits.take 9).reverse.dropWhile (· == '0')).reverse
    if digits.isEmpty then none
    else some ('.' :: if kept.isEmpty then ['0'] else kept, rest.drop digits.length)
  | _ => some ([], cs)

/-- A time of day in front of a text, and the rest; the seconds may be missing. -/
def time? (cs : List Char) : Option (List Char × List Char) := do
  let (hour, cs) ← below? 24 cs
  let cs ← after? ':' cs
  let (minute, cs) ← below? 60 cs
  match cs with
  | ':' :: cs =>
    let (second, cs) ← below? 61 cs
    let (fraction, cs) ← secondFraction? cs
    return (hour ++ ':' :: minute ++ ':' :: second ++ fraction, cs)
  | _ => return (hour ++ ':' :: minute, cs)

/-- An offset from UTC that makes up a whole text; the empty text is none.  The offset zero has a
plus sign. -/
def offset? (cs : List Char) : Option (List Char) :=
  match cs with
  | [] => some []
  | ['Z'] | ['z'] => some ['Z']
  | sign :: rest => do
    let (hour, cs) ← below? 24 rest
    let cs ← after? ':' cs
    let (minute, cs) ← below? 60 cs
    let written := hour ++ ':' :: minute
    if (sign = '+' ∨ sign = '-') ∧ cs.isEmpty then
      return (if Text.natOfDigits (hour ++ minute) = 0 then '+' else sign) :: written
    else none

/-- A date, a time or both, in one way of writing. -/
def moment? (cs : List Char) : Option String :=
  match date? cs with
  | some (date, []) => some (String.ofList date)
  | some (date, mark :: rest) => do
    let (time, rest) ← time? rest
    let offset ← offset? rest
    if mark = 'T' ∨ mark = 't' ∨ mark = ' ' then
      return String.ofList (date ++ 'T' :: time ++ offset)
    else none
  | none => match time? cs with
    | some (time, []) => some (String.ofList time)
    | _ => none

/-! ### Words -/

/-- Characters of a word that is not quoted. -/
def isWordChar (c : Char) : Bool :=
  c.isAlphanum || c == '+' || c == '-' || c == '.' || c == '_' || c == ':'

/-- The word in front of a text, and the rest.  After a date a blank and a time belong to it. -/
def word (cs : List Char) : List Char × List Char :=
  let first := cs.takeWhile isWordChar
  match date? first, cs.dropWhile isWordChar with
  | some (_, []), ' ' :: d :: rest =>
    if Text.isDigit d then
      (first ++ ' ' :: (d :: rest).takeWhile isWordChar, (d :: rest).dropWhile isWordChar)
    else (first, ' ' :: d :: rest)
  | _, rest => (first, rest)

/-- The value that a word denotes. -/
def ofWord? (w : List Char) : Option Setting :=
  if w = ['t', 'r', 'u', 'e'] then some (.flag true)
  else if w = ['f', 'a', 'l', 's', 'e'] then some (.flag false)
  else
    integer? w <|> basedInteger? w <|> real? w <|> (moment? w).map .text

end Toml

end Newswire
