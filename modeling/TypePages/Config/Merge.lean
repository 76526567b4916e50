import TypePages.Value.Read

/-!
Laying one configuration over another.

Mappings are merged entry by entry, and everything else is replaced.  Two lists are different: the
prefixes of the naming convention add up, so that a configuration can name further ones without
repeating the defaults.
-/

namespace TypePages.Config

/-- The keys whose lists add up. -/
def additiveKeys : List Scalar := [.text "getter_prefixes", .text "setter_prefixes"]

/-- A list with the items of another that are not in it yet, each once. -/
def extend (items : List Value) : List Value → List Value
  | [] => items
  | v :: vs => extend (if v.isIn items then items else items ++ [v]) vs

mutual

/-- The value of a key after the update, given the value before. -/
def mergeValue (key : Scalar) (old : Option Value) : Value → Value
  | .mapping update =>
    match old with
    | some (.mapping base) => .mapping (mergeEntries base update)
    | _ => .mapping update
  | .list items =>
    match old with
    | some (.list base) =>
      .list (if additiveKeys.contains key then extend base items else items)
    | _ => .list items
  | .scalar s => .scalar s

/-- The entries of a mapping with the entries of another laid over them. -/
def mergeEntries (base : List (Scalar × Value)) : List (Scalar × Value) → List (Scalar × Value)
  | [] => base
  | (key, value) :: update =>
    mergeEntries (putEntry key (mergeValue key (entryAt? key base) value) base) update

end

/-- Why a list cannot be updated at a key. -/
def listFault (items : List Value) (key : Scalar) (value : Value) : Fault :=
  match value with
  | .list _ =>
    if additiveKeys.contains key && !(Value.scalar key).isIn items then .noAttribute .list "get"
    else .namedItem
  | _ => .namedItem

/-- A value with another one laid over it.  Only mappings can be laid over something, and only
mappings can take an update that changes anything. -/
def merge (base update : Value) : Except Fault Value :=
  match base, update with
  | .mapping b, .mapping u => .ok (.mapping (mergeEntries b u))
  | .list b, .mapping [] => .ok (.list b)
  | .list b, .mapping ((key, value) :: _) => .error (listFault b key value)
  | .mapping _, v | .list _, v => .error (.noAttribute v.form "items")
  | v, _ => .error (.noAttribute v.form "copy")

end TypePages.Config
