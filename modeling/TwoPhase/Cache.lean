import TwoPhase.Failure
import TwoPhase.NameMap

/-
Fragment caches. A store keeps texts by key and drops an expired one when it is read. The shelf
holds all stores and the clock they read; time is counted in seconds and may pass between
any two readings. Past its last instant the clock has no name for a time: a text that would
expire there ends the program when it is written. A cache set names some stores of the shelf
in order, and a store may occur in it more than once.
-/
namespace TwoPhase

structure CacheEntry where
  content : String
  expiresAt : Option Nat
deriving DecidableEq

def CacheEntry.isExpired (entry : CacheEntry) (now : Nat) : Bool :=
  entry.expiresAt.elim false fun instant => instant ≤ now

structure Store where
  entries : NameMap CacheEntry := {}
  defaultTimeout : Option Nat := none

namespace Store

def get (store : Store) (now : Nat) (key : String) : Option String × Store :=
  match store.entries.get? key with
  | none => (none, store)
  | some entry =>
    if entry.isExpired now then (none, { store with entries := store.entries.erase key })
    else (some entry.content, store)

def expiry? (store : Store) (now : Nat) (timeout : Option Nat) : Option Nat :=
  (timeout.or store.defaultTimeout).map (now + ·)

def put (store : Store) (now : Nat) (key content : String) (timeout : Option Nat) : Store :=
  { store with entries := store.entries.insert key ⟨content, store.expiry? now timeout⟩ }

def delete (store : Store) (keys : List String) : Store :=
  { store with entries := keys.foldl NameMap.erase store.entries }

def clear (store : Store) : Store := { store with entries := {} }

/-- Expired entries count until they are read. -/
def size (store : Store) : Nat := store.entries.size

end Store

structure Shelf where
  stores : List Store := []
  /-- The instant that each reading of the clock gives. -/
  clock : Nat → Nat := fun _ => 0
  readings : Nat := 0
  latest : Nat := Nat.pow 2 63 - 1
  /-- The program has ended at a write whose expiry is past the last instant. What the fields say from
  then on belongs to no run. -/
  overflowed : Bool := false

namespace Shelf

def now (shelf : Shelf) : Nat := shelf.clock shelf.readings

def update (shelf : Shelf) (position : Nat) (store : Store) : Shelf :=
  { shelf with stores := shelf.stores.set position store, readings := shelf.readings + 1 }

def get (shelf : Shelf) (position : Nat) (key : String) : Option String × Shelf :=
  match shelf.stores[position]? with
  | none => (none, shelf)
  | some store =>
    let (hit, store) := store.get shelf.now key
    (hit, shelf.update position store)

def put (shelf : Shelf) (position : Nat) (key content : String) (timeout : Option Nat) : Shelf :=
  match shelf.stores[position]? with
  | none => shelf
  | some store =>
    let written := shelf.update position (store.put shelf.now key content timeout)
    let overflows := (store.expiry? shelf.now timeout).any (shelf.latest < ·)
    { written with overflowed := shelf.overflowed || overflows }

def delete (shelf : Shelf) (position : Nat) (keys : List String) : Shelf :=
  { shelf with stores := shelf.stores.modify position (·.delete keys) }

def clear (shelf : Shelf) (position : Nat) : Shelf :=
  { shelf with stores := shelf.stores.modify position Store.clear }

end Shelf

structure CacheSet where
  /-- An alias for each store, and its position on the shelf. -/
  members : List (String × Nat) := []

namespace CacheSet

def aliases (caches : CacheSet) : List String := caches.members.map Prod.fst

def isEmpty (caches : CacheSet) : Bool := caches.members.isEmpty

def getFrom (key : String) : List (String × Nat) → Shelf → Option String × Shelf
  | [], shelf => (none, shelf)
  | (_, position) :: rest, shelf =>
    match shelf.get position key with
    | (some content, shelf) => (some content, shelf)
    | (none, shelf) => getFrom key rest shelf

def get (caches : CacheSet) (key : String) (shelf : Shelf) : Option String × Shelf :=
  getFrom key caches.members shelf

def put (caches : CacheSet) (key content : String) (timeout : Option Nat) (shelf : Shelf) : Shelf :=
  caches.members.foldl (fun shelf (_, position) => shelf.put position key content timeout) shelf

def flush (caches : CacheSet) (keys : Option (List String)) (shelf : Shelf) : Shelf :=
  caches.members.foldl (fun shelf (_, position) =>
    match keys with
    | some keys => shelf.delete position keys
    | none => shelf.clear position) shelf

def preferredAlias : String := "ssify"

def fallbackAlias : String := "default"

def member (available : NameMap Nat) (cacheAlias : String) : Except Failure (String × Nat) :=
  match available.get? cacheAlias with
  | some position => .ok (cacheAlias, position)
  | none => fail (.unknownCacheAlias cacheAlias)

def select (available : NameMap Nat) (aliases : Option (List String)) : Except Failure CacheSet :=
  let chosen := aliases.getD
    [if available.contains preferredAlias then preferredAlias else fallbackAlias]
  (chosen.mapM (member available)).map CacheSet.mk

end CacheSet
end TwoPhase
