/-!
Lists of texts in brackets, as keys, shapes, signatures and values are all shown.
-/

namespace ShapeDispatch.Text

/-- The texts between brackets, separated by a comma and a space. -/
def bracketed (texts : List String) : String := "[" ++ ", ".intercalate texts ++ "]"

end ShapeDispatch.Text
