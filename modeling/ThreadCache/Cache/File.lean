import ThreadCache.Cache.Database

/-!
# The table in a file

A table is kept as text, a row a line in the order of the rows.
-/

namespace ThreadCache.Cache

open Wire.Fields (required nullable)

def rowDesc : Wire.Desc Row :=
  .record "Row"
    (required "id" .text <| required "type" (.integer .i64) <| nullable "name" .text <|
      nullable "description" .text <| required "color" .text <|
      required "creation_time" (.integer .i64) <| nullable "parent_thread_id" .text <|
      nullable "containing_thread_id" .text <| nullable "community" .text <|
      required "members" .text <| required "roles" .text <| required "current_user" .text <|
      nullable "source_message_id" .text <| required "replies_count" (.integer .i64) .nil)
    (fun (id, kind, name, description, color, creationTime, parent, container, community, members,
        roles, currentUser, sourceMessage, repliesCount, ()) =>
      ⟨id, kind, name, description, color, creationTime, parent, container, community, members,
        roles, currentUser, sourceMessage, repliesCount⟩)
    (fun r => (r.id, r.kind, r.name, r.description, r.color, r.creationTime, r.parent, r.container,
      r.community, r.members, r.roles, r.currentUser, r.sourceMessage, r.repliesCount, ()))
    (fun _ => rfl)

namespace Table

def text (t : Table) : String := String.join (t.rows.map fun row => rowDesc.writeText row ++ "\n")

/-- The table of rows, if no two share an id. -/
def ofRows? (rows : List Row) : Option Table :=
  if h : (rows.map (·.id)).Nodup then some ⟨rows, h⟩ else none

def ofLines? (lines : List String) : Option Table :=
  (lines.mapM fun line => (rowDesc.readText line).toOption).bind ofRows?

end Table

end ThreadCache.Cache
