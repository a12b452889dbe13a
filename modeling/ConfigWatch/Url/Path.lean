import ConfigWatch.Url.Encode
/-!
Paths. A path is a list of segments, each written after a slash. Segments that stand
for the directory itself or the one above are resolved when a path is read, so no
path holds any.
-/
namespace ConfigWatch.Url

/-- The path of a URL: segments, or text without structure. -/
inductive Path where
  | segments (parts : List Text)
  | plain (text : Text)
deriving DecidableEq, Repr

namespace Path

def toText : Path → Text
  | .segments parts => parts.flatMap fun part => '/' :: part
  | .plain text => text

/-- Whether a segment stands for the directory that it is in. A point may be
    percent-encoded. -/
def isHere (segment : Text) : Bool :=
  segment.lower == ".".toList || segment.lower == "%2e".toList

def isAbove (segment : Text) : Bool :=
  let small := segment.lower
  small == "..".toList || small == ".%2e".toList || small == "%2e.".toList ||
    small == "%2e%2e".toList

/-- Segments after `before`, resolved: the one for the directory above takes the last
    segment away, and one of the two at the very end leaves an empty segment. -/
def resolve (before : List Text) : List Text → List Text
  | [] => before
  | [last] =>
    if isAbove last then before.dropLast ++ [[]]
    else if isHere last then before ++ [[]]
    else before ++ [encode .path last]
  | segment :: rest =>
    if isAbove segment then resolve before.dropLast rest
    else if isHere segment then resolve before rest
    else resolve (before ++ [encode .path segment]) rest

/-- The written segments of a path. In a URL with a known scheme a backslash is as
    good as a slash. -/
def cutSegments (special : Bool) (t : Text) : List Text :=
  Text.pieces '/' (if special then t.map fun c => if c = '\\' then '/' else c else t)

/-- The directory of a path: the path itself if it ends in an empty segment, or else
    the path with one added. -/
def asDirectory : Path → Path
  | .segments parts =>
    if parts.getLast? = some [] then .segments parts else .segments (parts ++ [[]])
  | .plain text => .plain text

end Path

end ConfigWatch.Url
