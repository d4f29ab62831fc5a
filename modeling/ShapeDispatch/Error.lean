import ShapeDispatch.Key
import ShapeDispatch.Signature.Fault

/-!
What can go wrong when a description is compiled and when a call is dispatched, and how it is
reported.
-/

namespace ShapeDispatch

/-- Why an alias leads to no implementation. Entries are named by their signature texts. -/
inductive AliasError where
  | missingTarget (source target : String)
  | hopLimitExceeded (source : String) (limit : Nat)
  /-- The entries in the order visited, the one met again at both ends of the cycle. -/
  | cycle (source : String) (visited : List String)
  deriving DecidableEq, Repr

def AliasError.message : AliasError → String
  | missingTarget source target => "alias `" ++ source ++ "` targets missing entry `" ++ target ++ "`"
  | hopLimitExceeded source limit =>
    "alias `" ++ source ++ "` exceeds the hop limit of " ++ limit.repr
  | cycle source visited =>
    "alias `" ++ source ++ "` forms a cycle: " ++ " -> ".intercalate visited

/-- Why a description does not compile. -/
inductive CompileError where
  | signature (error : SignatureError)
  | unresolved (error : AliasError)
  | collision (key : Key) (first second : String)
  /-- A shape that still holds alternatives when it is to become a key. -/
  | unexpandedShape (signature shape : String)
  | defaultsOverflow (signature : String) (defaults params : Nat)
  | stage (stage message : String)
  deriving DecidableEq, Repr

def CompileError.message : CompileError → String
  | signature error => error.message
  | unresolved error => error.message
  | collision key first second =>
    "`" ++ second ++ "` and `" ++ first ++ "` both expand to " ++ key.render
  | unexpandedShape entry shape =>
    "`" ++ entry ++ "` still holds alternatives in shape `" ++ shape ++ "` after all stages ran"
  | defaultsOverflow entry defaults params =>
    "`" ++ entry ++ "` declares " ++ defaults.repr ++ " defaults but only " ++ params.repr ++
      " parameters"
  | stage name message => "stage `" ++ name ++ "` failed: " ++ message

/-- Why a call has no result. -/
inductive DispatchError where
  /-- No entry handles arguments of these types. -/
  | miss (key : Key)
  /-- More values than names to bind them to. -/
  | binding (supplied : Nat) (names : List String)
  /-- The body that ran reports a failure. -/
  | failed (message : String)
  deriving DecidableEq, Repr

def DispatchError.message : DispatchError → String
  | miss key => "Overload failed for " ++ key.render
  | binding supplied names =>
    supplied.repr ++ " arguments supplied but only " ++ names.length.repr ++ " names bound (" ++
      ", ".intercalate names ++ ")"
  | failed message => message

end ShapeDispatch
