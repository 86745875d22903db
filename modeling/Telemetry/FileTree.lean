import Telemetry.Entry
import Telemetry.Index
import Telemetry.Path

namespace Telemetry

open Text

abbrev Place := List (List Char)

/-- Entries by place. What is not listed is missing, and the root is always a directory. -/
structure FileTree where
  entries : Index Place Entry
  deriving DecidableEq, Repr

inductive Obstacle
  | missing
  | other
  deriving DecidableEq, Repr

namespace FileTree

def empty : FileTree := ⟨Index.empty⟩

def entryAt (t : FileTree) : Place → Entry
  | [] => .directory
  | place => (t.entries.get? place).getD .missing

def put (t : FileTree) (place : Place) (e : Entry) : FileTree := ⟨t.entries.insert place e⟩

def remove (t : FileTree) (place : Place) : FileTree := ⟨t.entries.erase place⟩

def walk (t : FileTree) (place : Place) : List (List Char) → Except Obstacle Place
  | [] => .ok place
  | name :: rest =>
    match t.entryAt place with
    | .missing => .error .missing
    | .file _ => .error .other
    | .directory =>
      if name = Path.up then t.walk place.tail rest
      else if Utf8.size name ≤ Path.maxNameSize then t.walk (name :: place) rest
      else .error .other

def placeOf (t : FileTree) (p : Path) : Except Obstacle Place :=
  if p.wellFormed then t.walk [] p.names else .error .other

/-- What a path leads to. A file is not what a path leads to that asks for a directory. -/
def find (t : FileTree) (p : Path) : Except Obstacle Entry :=
  match t.placeOf p with
  | .error o => .error o
  | .ok place =>
    match t.entryAt place with
    | .file bytes => if p.asksDirectory then .error .other else .ok (.file bytes)
    | e => .ok e

def site? (t : FileTree) (p : Path) : Option Place :=
  match t.placeOf p with
  | .error _ => none
  | .ok place =>
    if p.asksDirectory || t.entryAt place = .directory then none else some place

def makeWay (t : FileTree) (place : Place) : List (List Char) → FileTree × Option Place
  | [] => (t, some place)
  | name :: rest =>
    if name = Path.up then t.makeWay place.tail rest
    else if Utf8.size name ≤ Path.maxNameSize then
      match t.entryAt (name :: place) with
      | .missing => (t.put (name :: place) .directory).makeWay (name :: place) rest
      | .file _ => (t, none)
      | .directory => t.makeWay (name :: place) rest
    else (t, none)

def makeDirectory (t : FileTree) (p : Path) : FileTree × Option Place :=
  if p.wellFormed then t.makeWay [] p.names else (t, none)

def install (t : FileTree) (p : Path) (e : Entry) : FileTree :=
  let (t, _) := t.makeDirectory p.parent
  match t.placeOf p with
  | .ok place => t.put place e
  | .error _ => t

/-- Replaces the file at a path. Where the last step fails the temporary sibling is left. -/
def saveAtomic (t : FileTree) (p : Path) (bytes : List UInt8) :
    FileTree × Except SaveError Unit :=
  match t.makeDirectory p.parent with
  | (t, none) => (t, .error .createDirectory)
  | (t, some _) =>
    match p.temporary?.bind t.site? with
    | none => (t, .error .createTemporary)
    | some temporary =>
      let t := t.put temporary (.file bytes)
      match t.site? p with
      | none => (t, .error .rename)
      | some place => ((t.remove temporary).put place (.file bytes), .ok ())

def list (t : FileTree) (p : Path) : List (List Char) :=
  match t.placeOf p with
  | .error _ => []
  | .ok place =>
    t.entries.keys.filterMap fun
      | [] => none
      | name :: outer => if outer = place then some name else none

end FileTree

end Telemetry
