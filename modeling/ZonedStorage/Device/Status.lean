import ZonedStorage.Resumption.Program

namespace ZenFSModel

inductive StatusCode where
  | notFound
  | corruption
  | notSupported
  | invalidArgument
  | ioError
  | aborted
deriving DecidableEq, Repr

inductive SubCode where
  | none
  | noSpace
deriving DecidableEq, Repr

structure Status where
  code : StatusCode
  subcode : SubCode
  msg : String
  msg2 : String
deriving DecidableEq, Repr

namespace Status

def notFound (msg : String) (msg2 : String) : Status := ⟨.notFound, .none, msg, msg2⟩

def corruption (msg : String) (msg2 : String) : Status := ⟨.corruption, .none, msg, msg2⟩

def notSupported (msg : String) : Status := ⟨.notSupported, .none, msg, ""⟩

def invalidArgument (msg : String) : Status := ⟨.invalidArgument, .none, msg, ""⟩

def ioError (msg : String) : Status := ⟨.ioError, .none, msg, ""⟩

def aborted (msg : String) : Status := ⟨.aborted, .none, msg, ""⟩

def noSpace (msg : String) : Status := ⟨.ioError, .noSpace, msg, ""⟩

/-- Statuses are compared by their code alone, so every IO error equals `NoSpace()`. -/
def same (left right : Status) : Bool := left.code == right.code

def isNotFound (status : Status) : Bool := status.code == .notFound

end Status

abbrev Proc (σ α : Type) := Resumption.Prog Status σ α

end ZenFSModel
