/-!
# Blank characters, trimming and splitting

Text is cut in two ways in this library: dotted paths at every dot, and value lists at every
comma with blanks around the entries removed.  Both are built from `Text.pieces`, which is
inverse to joining with the separator (`Text.join_pieces`) and whose pieces do not contain the
separator (`Text.not_mem_of_mem_pieces`).
-/

namespace Newswire

namespace Text

/-- The characters with the Unicode property `White_Space`. -/
def isBlank (c : Char) : Bool :=
  let n := c.toNat
  (0x09 ≤ n && n ≤ 0x0D) || n == 0x20 || n == 0x85 || n == 0xA0 || n == 0x1680 ||
    (0x2000 ≤ n && n ≤ 0x200A) || n == 0x2028 || n == 0x2029 || n == 0x202F || n == 0x205F ||
    n == 0x3000

/-- Blank characters removed from both ends. -/
def trimChars (cs : List Char) : List Char :=
  ((cs.dropWhile isBlank).reverse.dropWhile isBlank).reverse

/-- Blank characters removed from both ends of a text. -/
def trim (s : String) : String := String.ofList (trimChars s.toList)

/-- The stretches between the occurrences of `sep`; there is always at least one. -/
def pieces (sep : Char) : List Char → List (List Char)
  | [] => [[]]
  | c :: rest =>
    if c = sep then [] :: pieces sep rest
    else match pieces sep rest with
      | [] => [[c]]
      | p :: ps => (c :: p) :: ps

/-- The pieces with `sep` between them. -/
def join (sep : Char) : List (List Char) → List Char
  | [] => []
  | [p] => p
  | p :: q :: ps => p ++ sep :: join sep (q :: ps)

/-- The stretches of a text between the occurrences of `sep`. -/
def splitAt (sep : Char) (s : String) : List String := (pieces sep s.toList).map String.ofList

/-- The part before the last `sep` and the part after it, if there is one. -/
def splitLast (sep : Char) (s : String) : Option (String × String) :=
  match (pieces sep s.toList).reverse with
  | last :: before@(_ :: _) =>
    some (String.ofList (join sep before.reverse), String.ofList last)
  | _ => none

/-- ASCII capitals made small, other characters kept. -/
def asciiLower (s : String) : String := String.ofList (s.toList.map Char.toLower)

variable {sep : Char}

theorem pieces_ne_nil (s : List Char) : pieces sep s ≠ [] := by
  cases s with
  | nil => simp [pieces]
  | cons c rest =>
    simp only [pieces]
    split
    · simp
    · split <;> simp

theorem join_pieces (s : List Char) : join sep (pieces sep s) = s := by
  induction s with
  | nil => rfl
  | cons c rest ih =>
    cases hp : pieces sep rest with
    | nil => exact absurd hp (pieces_ne_nil rest)
    | cons p ps =>
      rw [hp] at ih
      by_cases hc : c = sep
      · simp [pieces, hc, hp, join, ih]
      · cases ps with
        | nil => simpa [pieces, hc, hp, join] using ih
        | cons q qs => simpa [pieces, hc, hp, join] using ih

theorem not_mem_of_mem_pieces {s p : List Char} (h : p ∈ pieces sep s) : sep ∉ p := by
  induction s generalizing p with
  | nil => simp_all [pieces]
  | cons c rest ih =>
    simp only [pieces] at h
    split at h
    · rcases List.mem_cons.1 h with rfl | h
      · simp
      · exact ih h
    · next hc =>
      split at h
      · next hp => exact absurd hp (pieces_ne_nil rest)
      · next q qs hp =>
        rcases List.mem_cons.1 h with rfl | h
        · have := ih (hp ▸ List.mem_cons_self)
          simp [this, Ne.symm hc]
        · exact ih (hp ▸ List.mem_cons_of_mem _ h)

end Text

end Newswire
