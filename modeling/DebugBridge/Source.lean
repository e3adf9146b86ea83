/-
Source texts, and the cache that remembers them.

A source is read once. The first reading that succeeds decides the text for good; one that fails
leaves no trace, so the next will try again.
-/
import DebugBridge.Files

namespace DebugBridge

/-! ### Texts

A text is kept by its lines, and that is all a session ever uses of it. Which characters ended them
is forgotten.
-/

/-- The contents of a source, line by line. -/
structure SourceText where
  path : String
  lines : List String
  deriving DecidableEq, Repr

namespace SourceText

/-- `line` without the carriage return at its end, if it has one. -/
def dropReturn (line : List Char) : List Char :=
  if line.getLast? = some '\r' then line.dropLast else line

/-- Splits contents at every line feed; a carriage return before it belongs to the line's end. The
last line is what follows the last line feed, empty or not. -/
def ofContents (path contents : String) : SourceText :=
  let runs := Text.pieces (· = '\n') contents.toList
  ⟨path, runs.map fun run => String.ofList (dropReturn run)⟩

def lineCount (t : SourceText) : Nat := t.lines.length

theorem lineCount_ofContents (path contents : String) :
    (ofContents path contents).lineCount = contents.toList.count '\n' + 1 := by
  rw [lineCount, ofContents, List.length_map, Text.length_pieces, List.count]
  rfl

/-- The line at `index`, counted from zero. -/
def line? (t : SourceText) (index : Nat) : Option String := t.lines[index]?

end SourceText

/-! ### The cache

The cache is asked first, and files only for what it does not have. So a text that is in the cache
stays as it is, whatever becomes of the file.
-/

/-- The texts read so far, each path once. -/
structure SourceCache where
  texts : List SourceText
  deriving DecidableEq, Repr

namespace SourceCache

def empty : SourceCache := ⟨[]⟩

def get? (cache : SourceCache) (path : String) : Option SourceText :=
  cache.texts.find? fun t => t.path = path

/-- What loading a source gives: its text, the cache afterwards, and whether the file was asked
for. -/
structure Load where
  result : Except Failure SourceText
  cache : SourceCache
  asked : Bool

/-- The text of a source, from the cache if it is there. -/
def load (cache : SourceCache) (files : Files) (path : String) : Load :=
  match cache.get? path with
  | some t => ⟨.ok t, cache, false⟩
  | none =>
    match files.read path with
    | .error fault => ⟨.error (.io fault), cache, true⟩
    | .ok contents =>
      let t := SourceText.ofContents path contents
      ⟨.ok t, ⟨cache.texts ++ [t]⟩, true⟩

/-- A text that is in the cache is not asked for. -/
theorem load_of_get?_eq_some {cache : SourceCache} {path : String} {t : SourceText}
    (h : cache.get? path = some t) (files : Files) :
    cache.load files path = ⟨.ok t, cache, false⟩ := by
  rw [load, h]

section Uncached

variable {cache : SourceCache} {files : Files} {path : String} (hnone : cache.get? path = none)
include hnone

theorem load_of_unreadable {fault : SourceFault} (hread : files.read path = .error fault) :
    cache.load files path = ⟨.error (.io fault), cache, true⟩ := by
  rw [load, hnone, hread]

theorem load_of_readable {contents : String} (hread : files.read path = .ok contents) :
    cache.load files path =
      ⟨.ok (.ofContents path contents), ⟨cache.texts ++ [.ofContents path contents]⟩, true⟩ := by
  rw [load, hnone, hread]

end Uncached

/-- A text is found in a larger cache where none was before. -/
theorem get?_add (cache : SourceCache) (t : SourceText) (path : String) :
    get? ⟨cache.texts ++ [t]⟩ path =
      (cache.get? path).or (if t.path = path then some t else none) := by
  by_cases h : t.path = path <;> simp [get?, List.find?_append, h]

/-- After a load the cache has what the load gave, and under other paths what it had. -/
theorem get?_load (cache : SourceCache) (files : Files) (path other : String) :
    (cache.load files path).cache.get? other =
      if other = path then (cache.load files path).result.toOption else cache.get? other := by
  cases hcached : cache.get? path with
  | some t =>
    rw [load_of_get?_eq_some hcached]
    by_cases hother : other = path
    · rw [if_pos hother, hother, hcached]; rfl
    · rw [if_neg hother]
  | none =>
    cases hread : files.read path with
    | error fault =>
      rw [load_of_unreadable hcached hread]
      by_cases hother : other = path
      · rw [if_pos hother, hother, hcached]; rfl
      · rw [if_neg hother]
    | ok contents =>
      rw [load_of_readable hcached hread, get?_add]
      by_cases hother : other = path
      · rw [if_pos hother, hother, hcached]; simp [SourceText.ofContents, Except.toOption]
      · rw [if_neg hother, if_neg fun h => hother h.symm, Option.or_none]

theorem get?_load_self {cache : SourceCache} {files : Files} {path : String} {source : SourceText}
    (h : (cache.load files path).result = .ok source) :
    (cache.load files path).cache.get? path = some source := by
  rw [get?_load, if_pos rfl, h]
  rfl

/-- What a cache has, it keeps. -/
theorem get?_load_of_get?_eq_some {cache : SourceCache} {other : String} {t : SourceText}
    (h : cache.get? other = some t) (files : Files) (path : String) :
    (cache.load files path).cache.get? other = some t := by
  rw [get?_load]
  split
  · next hother => rw [← hother, load_of_get?_eq_some h]; rfl
  · exact h

end SourceCache

end DebugBridge
