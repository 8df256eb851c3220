import CommentTypes.NameMap

/-!
# Directory trees

Directory trees: files with their bytes, and directories with named entries. What stands in a
directory is reached by its name, also where the directory may not be listed.
-/

namespace CommentTypes

/-- A file or a directory. The entries of a directory have different names, and can be `listed` or
not. -/
inductive Entry where
  | file (bytes : List UInt8)
  | dir (entries : List (String × Entry)) (listed : Bool := true)

namespace Entry

/-- A directory. -/
def isDir : Entry → Bool
  | .file _ => false
  | .dir _ _ => true

/-- The entry with a name. -/
def child? (name : String) : Entry → Option Entry
  | .file _ => none
  | .dir entries _ => entries.lookup name

/-- The entry that names lead to, one below the other. -/
def get? : Entry → List String → Option Entry
  | e, [] => some e
  | e, name :: rest => (e.child? name).bind fun below => below.get? rest

/-- Puts an entry where names lead, with directories on the way as needed. Nothing is put below a
file. -/
def put : Entry → List String → Entry → Entry
  | _, [], new => new
  | .file bytes, _ :: _, _ => .file bytes
  | .dir entries listed, name :: rest, new =>
    let below := (entries.lookup name).getD (.dir [])
    .dir (NameMap.setEntry name (below.put rest new) entries) listed

end Entry

end CommentTypes
