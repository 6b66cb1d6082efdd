/-
Pages: the documents of a reply, decoded one by one.

A hit that cannot be decoded is set aside with its position and the reason, and the others are not
affected by it.

`Page` and `RejectedHit` are those of `gleaner_search::materialize`, and `Page.ofReply` is
`gleaner_search::materialize::materialize`.
-/
import HarvestSearch.Item
import HarvestSearch.Reply

set_option autoImplicit false

namespace HarvestSearch

/-- A hit that could not be decoded. Positions count from zero. -/
structure RejectedHit where
  position : Nat
  message : String
deriving DecidableEq, Repr, Inhabited

/-- The items of a page, and the hits that could not be decoded. -/
structure Page where
  items : List Item
  rejected : List RejectedHit
deriving DecidableEq, Repr, Inhabited

namespace Page

/-- The page without hits. -/
def empty : Page := ⟨[], []⟩

/-- The stored document of a hit: an object under `_source`. -/
def source? (hit : Json) : Option Json :=
  match hit.get? "_source" with
  | some (.object members) => some (.object members)
  | _ => none

/-- The item of the hit at a position, or the reason why there is none. -/
def decodeHit (registry : Registry) (position : Nat) (hit : Json) : Except String Item :=
  match source? hit with
  | none => .error ("hit " ++ Json.intText position ++ " has no _source.")
  | some source => (Item.ofSource source registry).mapError DomainError.message

/-- The page of the hits from a position on. -/
def ofHits (registry : Registry) (position : Nat) : List Json → Page
  | [] => empty
  | hit :: hits =>
    let rest := ofHits registry (position + 1) hits
    match decodeHit registry position hit with
    | .ok item => { rest with items := item :: rest.items }
    | .error message => { rest with rejected := ⟨position, message⟩ :: rest.rejected }

/-- The page of a reply. -/
def ofReply (reply : Json) (registry : Registry) : Page := ofHits registry 0 (Reply.hits reply)

end Page

/-! ## Written form -/

def RejectedHit.toJson (hit : RejectedHit) : Json :=
  .object [("position", .int hit.position), ("message", .string hit.message)]

def Page.toJson (page : Page) : Json :=
  .object [
    ("items", .array (page.items.map Item.toJson)),
    ("rejected", .array (page.rejected.map RejectedHit.toJson))]

end HarvestSearch
