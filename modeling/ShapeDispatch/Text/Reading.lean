/-!
Readings: functions that take a beginning of a text, or refuse it. Those that repeat a reading stop
as soon as it takes nothing, so that they end on every text.
-/

namespace ShapeDispatch.Text

/-- What a reading makes of a text: a result and the characters left over, or nothing. -/
abbrev Reading (α : Type) := StateT (List Char) Option α

namespace Reading

/-- Refuses every text. -/
def refuse {α : Type} : Reading α := fun _ => none

/-- The next character, which stays where it is. -/
def peek? : Reading (Option Char) := fun cs => some (cs.head?, cs)

/-- Takes the next character. -/
def next : Reading Char
  | [] => none
  | c :: rest => some (c, rest)

/-- Takes the next character if it passes the test. -/
def satisfying (test : Char → Bool) : Reading Char
  | [] => none
  | c :: rest => if test c then some (c, rest) else none

/-- Takes exactly this character. -/
def char (c : Char) : Reading Unit
  | [] => none
  | c' :: rest => if c' = c then some ((), rest) else none

/-- Takes exactly these characters. -/
def exactly : List Char → Reading Unit
  | [], cs => some ((), cs)
  | _ :: _, [] => none
  | c :: more, c' :: rest => if c' = c then exactly more rest else none

/-- Takes the longest run of characters that pass the test. -/
def run (test : Char → Bool) : Reading (List Char) := fun cs =>
  some (cs.takeWhile test, cs.dropWhile test)

/-- The longest run, which must not be empty. -/
def someRun (test : Char → Bool) : Reading (List Char) := do
  let taken ← run test
  if taken.isEmpty then refuse else pure taken

/-- Takes this character if it comes next, and says whether it did. -/
def optionally (c : Char) : Reading Bool
  | [] => some (false, [])
  | c' :: rest => if c' = c then some (true, rest) else some (false, c' :: rest)

/-- The first reading if it does not refuse, else the second. -/
def orElse {α : Type} (first second : Reading α) : Reading α := fun cs =>
  match first cs with
  | some result => some result
  | none => second cs

/-- Repeats a reading on a text until it refuses or takes nothing. -/
def manyFrom {α : Type} (item : Reading α) (cs : List Char) : List α × List Char :=
  match item cs with
  | none => ([], cs)
  | some (a, rest) =>
    if rest.length < cs.length then
      let (as, left) := manyFrom item rest
      (a :: as, left)
    else ([a], rest)
termination_by cs.length

/-- Repeats a reading until it refuses or takes nothing. -/
def many {α : Type} (item : Reading α) : Reading (List α) := fun cs => some (manyFrom item cs)

/-- Repeats a reading on a text for as long as `more` says that another one follows. -/
def chainFrom {α : Type} (item : Reading α) (more : Reading Bool) (cs : List Char) :
    Option (List α × List Char) :=
  match item cs with
  | none => none
  | some (a, rest) =>
    match more rest with
    | none => none
    | some (false, left) => some ([a], left)
    | some (true, left) =>
      if left.length < cs.length then
        (chainFrom item more left).map (fun (as, last) => (a :: as, last))
      else none
termination_by cs.length

/-- Repeats a reading for as long as `more`, tried behind each item, says that another one follows. -/
def chain {α : Type} (item : Reading α) (more : Reading Bool) : Reading (List α) :=
  chainFrom item more

/-- What a reading makes of a whole text. -/
def whole? {α : Type} (reading : Reading α) (text : List Char) : Option α :=
  match reading text with
  | some (a, []) => some a
  | _ => none

end Reading

end ShapeDispatch.Text
