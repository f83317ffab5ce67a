namespace Typeahead.FileName

/-! Names of files in paths. -/

/-- The parts of a path between its slashes. -/
def parts (path : List Char) : List (List Char) :=
  path.splitOn '/'

/-- The last part of a path that names something: empty parts and single dots do not. -/
def last (path : String) : List Char :=
  ((parts path.toList).filter fun part => part != [] && part != ['.']).getLast?.getD []

/-- The suffix of a file name with its dot.  A dot at the start or at the end begins none. -/
def suffix (path : String) : String :=
  let backward := (last path).reverse
  let afterDot := backward.takeWhile (· != '.')
  let beforeDot := (backward.dropWhile (· != '.')).drop 1
  if afterDot.isEmpty || beforeDot.isEmpty then "" else .ofList ('.' :: afterDot.reverse)

end Typeahead.FileName
