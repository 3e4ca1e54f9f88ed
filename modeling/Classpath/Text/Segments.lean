namespace Classpath.Text

/-! # Segments and lines

A text is cut at each occurrence of a separator character, which gives one segment more than there
are separators; joining the segments with the separator gives the text back. A line ends at a line
feed, alone or after a carriage return, and the end of the text also ends a line that is not
empty. -/

/-- The segments between the separators, in order. -/
def segments (separator : Char) : List Char → List (List Char)
  | [] => [[]]
  | c :: cs =>
    if c = separator then [] :: segments separator cs
    else
      match segments separator cs with
      | [] => [[c]]
      | s :: ss => (c :: s) :: ss

/-- Puts the separator between each two neighbours. -/
def joined (separator : List Char) : List (List Char) → List Char
  | [] => []
  | [s] => s
  | s :: ss => s ++ separator ++ joined separator ss

theorem segments_ne_nil (separator : Char) (cs : List Char) : segments separator cs ≠ [] := by
  cases cs with
  | nil => simp [segments]
  | cons c cs =>
    rw [segments]
    split
    · simp
    · split <;> simp

/-- Nothing of a text is lost by cutting it. -/
theorem joined_segments (separator : Char) (cs : List Char) :
    joined [separator] (segments separator cs) = cs := by
  induction cs with
  | nil => rfl
  | cons c cs ih =>
    rw [segments]
    split
    next h =>
      match hs : segments separator cs with
      | [] => exact absurd hs (segments_ne_nil separator cs)
      | s :: ss => simp [joined, ← hs, ih, h]
    next h =>
      match hs : segments separator cs with
      | [] => exact absurd hs (segments_ne_nil separator cs)
      | [s] => simpa [joined, hs] using ih
      | s :: t :: ss => simpa [joined, hs] using ih

/-! ## Strings -/

/-- The segments of a string, as strings. -/
def split (separator : Char) (s : String) : List String :=
  (segments separator s.toList).map String.ofList

/-- The strings with a separator between each two neighbours. -/
def join (separator : String) (parts : List String) : String :=
  String.ofList (joined separator.toList (parts.map String.toList))

/-! ## Lines -/

/-- The lines of a text, without their endings. -/
def lines : List Char → List (List Char)
  | [] => []
  | '\n' :: cs => [] :: lines cs
  | '\r' :: '\n' :: cs => [] :: lines cs
  | c :: cs =>
    match lines cs with
    | [] => [[c]]
    | l :: ls => (c :: l) :: ls

end Classpath.Text
