/-!
# Segments

`segments ends l` cuts the list `l` after every element that satisfies `ends`, so that such
an element can only stand last in its segment.  No segment is empty, and only the last one
may lack a closing element.  Lines of bytes, of characters and of tokens are segments.
-/

namespace IntScript

/-- The pieces of a list, cut after every element that satisfies `ends`. -/
def segments {α : Type} (ends : α → Bool) (l : List α) : List (List α) :=
  l.splitBy (fun a _ => !ends a)

end IntScript
