import ZonedStorage.File.ZoneFile

namespace ZenFSModel.Path

def separator : UInt8 := 0x2f

def dot : Name := [0x2e]

def dotdot : Name := [0x2e, 0x2e]

def isAbsolute (p : Name) : Bool := p.head? == some separator

def fileNames (p : Name) : List Name := (p.splitOn separator).filter (fun name => !name.isEmpty)

def endsWithSeparator (p : Name) : Bool := p.getLast? == some separator

structure Normal where
  names : List Name
  trailing : Bool
deriving DecidableEq, Repr

def normalStep (absolute : Bool) (state : Normal) (name : Name) : Normal :=
  if name = dot then { state with trailing := true }
  else if name = dotdot then
    match state.names with
    | [] => if absolute then state else ⟨[dotdot], false⟩
    | top :: rest => if top = dotdot then ⟨dotdot :: top :: rest, false⟩ else ⟨rest, true⟩
  else ⟨name :: state.names, false⟩

def normalNames (p : Name) : Normal :=
  let state := (fileNames p).foldl (normalStep (isAbsolute p)) ⟨[], false⟩
  if endsWithSeparator p then { state with trailing := true } else state

def join (names : List Name) : Name := List.intercalate [separator] names

def lexicallyNormal (p : Name) : Name :=
  if p = [] then []
  else
    let state := normalNames p
    let root := if isAbsolute p then [separator] else []
    match state.names with
    | [] => if isAbsolute p then root else dot
    | top :: _ =>
      root ++ join state.names.reverse ++ (if state.trailing && top != dotdot then [separator] else [])

/-- `path / other` of the standard library: an absolute right operand replaces the left one. -/
def append (p other : Name) : Name :=
  if isAbsolute other then other
  else if p = [] || endsWithSeparator p then p ++ other
  else p ++ [separator] ++ other

def parentPath (p : Name) : Name :=
  let names := p.splitOn separator
  let parent := join names.dropLast
  if parent = [] && isAbsolute p then [separator] else parent

end ZenFSModel.Path

namespace ZenFSModel

open ZenFSModel.Path

def formatPathLexically (filepath : Name) : Name := Path.append [separator] (lexicallyNormal filepath)

end ZenFSModel
