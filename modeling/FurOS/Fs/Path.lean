import FurOS.Fs.Node

/-! Path resolution (`fs_resolve`, `resolve_parent_and_leaf`).

`fs_resolve` reads a path character by character into a token of at most 31
characters and steps at each `'/'` and at the end. `resolve_parent_and_leaf`
splits a path at its last `'/'` and resolves what stands before it. -/
namespace FurOS

/-- `char token[FS_MAX_NAME + 1]` with `token_len` characters: room for the terminator remains. -/
structure Token where
  chars : List UInt8
  fits : chars.length ≤ 31

namespace Token

def empty : Token := ⟨[], by decide⟩

/-- `token[token_len++] = ch`, after the check that `token_len` is below `FS_MAX_NAME`. -/
def push (tok : Token) (ch : UInt8) (h : ¬ tok.chars.length ≥ 31) : Token :=
  ⟨tok.chars ++ [ch], by simp; omega⟩

end Token

/-- What a finished token does to the current node; `none` is `return -1`. -/
def enterToken (t : Nodes) (current : Int) (tok : Token) : Except Fault (Option Int) :=
  if tok.chars = [] then return some current
  else if tok.chars = lit "." then return some current
  else if tok.chars = lit ".." then
    if current ≠ 0 then do
      let node ← nodeIndex current
      return some (t node).parent.toInt
    else return some current
  else
    match findChild t current tok.chars with
    | none => return none
    | some child => return some (child.val : Int)

/-- The loop of `fs_resolve` over the rest of the path. -/
def resolveLoop (t : Nodes) (current : Int) (tok : Token) : List UInt8 → Except Fault Int
  | [] => do
    match ← enterToken t current tok with
    | none => return -1
    | some current => return current
  | ch :: rest =>
    if ch = slash then do
      match ← enterToken t current tok with
      | none => return -1
      | some current => resolveLoop t current Token.empty rest
    else if h : tok.chars.length ≥ 31 then return -1
    else resolveLoop t current (tok.push ch h) rest

def fsResolve (t : Nodes) (cwd : Int) (path : CStr) : Except Fault Int :=
  if path.chars = [] then return cwd
  else resolveLoop t (if path.chars.head? = some slash then 0 else cwd) Token.empty path.chars

/-- The position of the last `'/'`, as the loop over the path finds it. -/
def lastSlashFrom (i : Nat) (found : Option Nat) : List UInt8 → Option Nat
  | [] => found
  | ch :: rest => lastSlashFrom (i + 1) (if ch = slash then some i else found) rest

def lastSlash (path : List UInt8) : Option Nat := lastSlashFrom 0 none path

/-- `strcpy` of a component that passed `is_valid_name` into `leaf_out`. -/
def validLeaf (s : CStr) : Option Name :=
  if h : isValidName s.chars = true then some ⟨s.chars, s.noNul, h⟩ else none

/-- The directory before the `'/'` at `pos`: the root, or where `parent_path` leads. -/
def frontParent (t : Nodes) (cwd : Int) (path : CStr) (pos : Nat) : Except Fault Int :=
  if pos = 0 then return 0 else fsResolve t cwd (path.take pos)

/-- The parent's index and the last component; `none` is `return -1`. -/
def resolveParentAndLeaf (t : Nodes) (cwd : Int) (path : CStr) : Except Fault (Option (Int × Name)) :=
  if path.chars = [] then return none
  else
    match lastSlash path.chars with
    | none => return (validLeaf path).map fun leaf => (cwd, leaf)
    | some pos =>
      if pos = path.chars.length - 1 then return none
      else if pos ≥ 128 then return none  -- `sizeof(parent_path)`
      else do
        let parent ← frontParent t cwd path pos
        if parent < 0 then return none
        else do
          let node ← nodeIndex parent
          if !(t node).isDir then return none
          else return (validLeaf (path.drop (pos + 1))).map fun leaf => (parent, leaf)

end FurOS
