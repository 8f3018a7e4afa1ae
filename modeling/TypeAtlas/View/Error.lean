import TypeAtlas.View.Basic
/-!
# Why a node has no view
-/

namespace TypeAtlas

/-- Why a request failed: messages from the outermost to the root cause. -/
structure Failure where
  message : String
  causes : List String := []
  deriving DecidableEq, Inhabited, Repr

namespace Failure

/-- All messages, the outermost first. -/
def messages (failure : Failure) : List String :=
  failure.message :: failure.causes

/-- The failure with what was being done put before it. -/
def context (failure : Failure) (message : String) : Failure :=
  ⟨message, failure.messages⟩

end Failure

/-- Why a node has no view. -/
inductive ViewError where
  | invalidReference (id : TypeId)
  | missingRetriever (location : Location)
  | unresolvedLocation (location : Location)
  | referenceChainTooLong (hops : Nat)
  | unexpectedArray
  | unknownNode (handle : ViewId)
  | retriever (failure : Failure)
  deriving DecidableEq, Inhabited, Repr

namespace ViewError

/-- The sort of error. -/
def name : ViewError → String
  | invalidReference _ => "InvalidReference"
  | missingRetriever _ => "MissingRetriever"
  | unresolvedLocation _ => "UnresolvedLocation"
  | referenceChainTooLong _ => "ReferenceChainTooLong"
  | unexpectedArray => "UnexpectedArray"
  | unknownNode _ => "UnknownNode"
  | retriever _ => "RetrieverError"

/-- The error in words. -/
def message : ViewError → String
  | invalidReference id => "encountered invalid type reference " ++ id.display
  | missingRetriever location => "no retriever is available to resolve " ++ location.display
  | unresolvedLocation location => "no type found at " ++ location.display
  | referenceChainTooLong hops => "reference chain exceeded " ++ toString hops ++ " hops"
  | unexpectedArray => "array nodes must be unwrapped before building children"
  | unknownNode handle =>
    "node LocalizedId(" ++ toString handle.val.toNat ++ ") was not produced by this resolver"
  | retriever failure => "retriever failed: " ++ failure.message

/-- What led to the error, one cause on each line. -/
def stack? : ViewError → Option String
  | retriever failure => some ("\n".intercalate failure.messages)
  | _ => none

/-- The error as a reader sees it. -/
def details (error : ViewError) : ErrorDetails :=
  ⟨error.name, error.message, error.stack?⟩

end ViewError

end TypeAtlas
