import IntScript.Segment

/-!
# Lines

A text is cut into lines after every newline.  `withoutTerminator` takes from a line its
newline and a carriage return right before that newline, and `lines` are the lines of a
text without their terminators.
-/

namespace IntScript.Text

/-- A line without its final newline, and without a carriage return right before it. -/
def withoutTerminator (line : List Char) : List Char :=
  match line.reverse with
  | '\n' :: '\r' :: body => body.reverse
  | '\n' :: body => body.reverse
  | _ => line

/-- The lines of a text, without their terminators. -/
def lines (text : List Char) : List (List Char) :=
  (segments (· == '\n') text).map withoutTerminator

end IntScript.Text
