import ConfigWatch.Feed.Event
import ConfigWatch.Feed.Tree
import ConfigWatch.Text.Quoted
import ConfigWatch.Text.Utf8
/-!
Files as change feeds. The endpoints are directories and the key is a path in them;
the first endpoint that has a file there is watched. A subscription brings the content
of the file at first and then one batch for each change of it.

Two parties write to the queue of a subscription: the one that opens it reads the file
and sends what it read, and a watcher does the same for every change that it is told
of. Reading and sending are steps of their own, so the steps of the two can mix in any
order. A subscription that is used by itself takes them in the order in which they come
up.
-/
namespace ConfigWatch.Feed

abbrev Batch := Except Failure (List Event)

/-- A path below a directory, which may be written with or without a slash at its end. -/
def joinPath (directory path : Text) : Text :=
  if directory.isEmpty || directory.getLast? = some '/' then directory ++ path
  else directory ++ '/' :: path

/-- A file that a subscription watches: its key, its path as it was made from the
    endpoint, and its place. -/
structure Watched where
  key : Text
  path : Text
  place : Place
deriving DecidableEq

def fileAt? (t : Tree) (key path : Text) : Option Watched :=
  match t.place? path with
  | some place =>
    match t.get? place with
    | some (.file _) => some ⟨key, path, place⟩
    | _ => none
  | none => none

/-- The file that a key names under the first endpoint that has one. Slashes at the
    start of the key do not count. -/
def findFile? (t : Tree) (endpoints : List Text) (key : Text) : Option Watched :=
  endpoints.findSome? fun endpoint => fileAt? t key (joinPath endpoint key.dropSlashes)

def missingFile (endpoints : List Text) (key : Text) : Failure :=
  .transport ("watch key '".toList ++ key ++ "' not found under ".toList ++
    Text.quotedList endpoints)

def unreadableFile (path : Text) (reason : String) : Failure :=
  .transport ("failed to read ".toList ++ path ++ ": ".toList ++ reason.toList)

def Watched.read (w : Watched) (t : Tree) : Batch :=
  match t.get? w.place with
  | some (.file content) => .ok [⟨.put, w.key, some (Utf8.decodeLossy content)⟩]
  | some .directory => .error (unreadableFile w.path "Is a directory (os error 21)")
  | none => .error (unreadableFile w.path "No such file or directory (os error 2)")

/-- A change of a tree. -/
inductive TreeChange where
  /-- A complete file is put in place. -/
  | replace (content : List UInt8)
  /-- What stands there is removed. -/
  | remove
  /-- What stands there is moved out of the tree. -/
  | moveOut
  /-- A directory is made. -/
  | makeDirectory
deriving DecidableEq

def TreeChange.apply (change : TreeChange) (t : Tree) (place : Place) : Tree :=
  match change with
  | .replace content => t.putDeep place (.file content)
  | .remove => t.erase place
  | .moveOut => t.erase place
  | .makeDirectory => t.putDeep place .directory

/-- The batch for a change of a watched file: its removal is told as such, and after
    any other change it is read. -/
def Watched.batch (w : Watched) (t : Tree) : TreeChange → Batch
  | .remove => .ok [⟨.delete, w.key, none⟩]
  | _ => w.read t

/-- How far the opening of a subscription has come. -/
inductive Opening where
  /-- The watcher is in place. -/
  | watching
  /-- The file has been read. -/
  | read (batch : Batch)
  /-- What was read has been sent. -/
  | done

/-- A subscription and the tree that it watches. -/
structure FileSubscription where
  watched : Watched
  tree : Tree
  opening : Opening
  /-- The changes that the watcher has still to handle. -/
  pending : List TreeChange
  /-- What the watcher has read and not sent yet. -/
  handling : Option Batch
  /-- What was sent and not received yet. -/
  queue : List Batch
  /-- What was received. -/
  received : List Batch

namespace FileSubscription

/-- One step of any party. -/
inductive Step where
  /-- Something changes at a place. -/
  | change (place : Place) (change : TreeChange)
  /-- The watcher takes up the next change and reads the file. -/
  | handle
  /-- The watcher sends what it has read. -/
  | send
  /-- The opening reads the file. -/
  | readFirst
  /-- The opening sends what it has read. -/
  | sendFirst
  /-- The subscriber receives a batch. -/
  | receive

/-- A subscription whose watcher has just been put in place. -/
def start (w : Watched) (t : Tree) : FileSubscription := ⟨w, t, .watching, [], none, [], []⟩

/-- The subscription after a step; a step that cannot be taken changes nothing. -/
def step (s : FileSubscription) : Step → FileSubscription
  | .change place change =>
    { s with
      tree := change.apply s.tree place
      pending := if place = s.watched.place then s.pending ++ [change] else s.pending }
  | .handle =>
    match s.handling, s.pending with
    | none, change :: rest =>
      { s with pending := rest, handling := some (s.watched.batch s.tree change) }
    | _, _ => s
  | .send =>
    match s.handling with
    | some batch => { s with handling := none, queue := s.queue ++ [batch] }
    | none => s
  | .readFirst =>
    match s.opening with
    | .watching => { s with opening := .read (s.watched.read s.tree) }
    | _ => s
  | .sendFirst =>
    match s.opening with
    | .read batch => { s with opening := .done, queue := s.queue ++ [batch] }
    | _ => s
  | .receive =>
    match s.queue with
    | batch :: rest => { s with queue := rest, received := s.received ++ [batch] }
    | [] => s

def run (s : FileSubscription) (steps : List Step) : FileSubscription := steps.foldl step s

def opened (w : Watched) (t : Tree) : FileSubscription :=
  (start w t).run [.readFirst, .sendFirst, .receive]

/-- A change, told and received at once. -/
def changed (s : FileSubscription) (place : Place) (change : TreeChange) : FileSubscription :=
  s.run [.change place change, .handle, .send, .receive]

end FileSubscription

def subscribeFile (t : Tree) (endpoints : List Text) (key : Text) :
    Except Failure FileSubscription :=
  match findFile? t endpoints key with
  | some watched => .ok (.opened watched t)
  | none => .error (missingFile endpoints key)

end ConfigWatch.Feed
