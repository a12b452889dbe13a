import ConfigWatch.Feed.File
/-!
Watching a file by looking at it from time to time. Whatever differs from what was
seen last is told as a batch; nothing is told as long as nothing differs.
-/
namespace ConfigWatch.Feed

/-- What a look at a file shows. -/
inductive Sight where
  | absent
  | unreadable (reason : String)
  | content (bytes : List UInt8)
deriving DecidableEq

/-- A file that is looked at, and what was seen last. -/
structure Observed where
  key : Text
  path : Text
  last : Option Sight
deriving DecidableEq

namespace Observed

/-- The batch about what is seen now. A file that is gone has been removed if it was
    ever seen, and cannot be read otherwise. -/
def batch (o : Observed) : Sight → Batch
  | .content bytes => .ok [⟨.put, o.key, some (Utf8.decodeLossy bytes)⟩]
  | .unreadable reason => .error (unreadableFile o.path reason)
  | .absent =>
    if o.last.isSome then .ok [⟨.delete, o.key, none⟩]
    else .error (unreadableFile o.path "No such file or directory (os error 2)")

/-- The batch that a look gives, if it shows anything new, and the file with that look
    taken. -/
def look (o : Observed) (seen : Sight) : Option Batch × Observed :=
  (if o.last = some seen then none else some (o.batch seen), { o with last := some seen })

end Observed

end ConfigWatch.Feed
