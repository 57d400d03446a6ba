import GrpcRust.TonicXds.Cache
/-!
# From endpoint snapshots to changes

`xds/endpoint_manager.rs`: a task per cluster sends the balancer what has changed. The service made of an added
endpoint is left out.
-/

namespace TonicXds

open Lib

/-! ## Changes -/

inductive Change (A : Type) where
  | insert (key : A)
  | remove (key : A)
deriving DecidableEq

section
variable {A : Type} [DecidableEq A]

def Change.apply (s : Finset A) : Change A → Finset A
  | .insert key => Insert.insert key s
  | .remove key => s.erase key

def diff (order : IterOrder) (active newSet : HashSet A) : List (Change A) :=
  (order.elems (newSet.difference active)).map .insert ++ (order.elems (active.difference newSet)).map .remove

theorem foldl_insert (l : List A) (s : Finset A) : (l.map .insert).foldl Change.apply s = s ∪ l.toFinset := by
  induction l generalizing s with
  | nil => simp
  | cons a l ih =>
    rw [List.map_cons, List.foldl_cons, ih]
    ext x
    simp [Change.apply]

theorem foldl_remove (l : List A) (s : Finset A) : (l.map .remove).foldl Change.apply s = s \ l.toFinset := by
  induction l generalizing s with
  | nil => simp
  | cons a l ih =>
    rw [List.map_cons, List.foldl_cons, ih]
    ext x
    simp [Change.apply]
    tauto

theorem replay_diff (o : IterOrder) (a n : HashSet A) : (diff o a n).foldl Change.apply a.toFinset = n.toFinset := by
  rw [diff, List.foldl_append, foldl_insert, foldl_remove]
  ext x
  simp
  tauto

end

/-! ## The diff loop -/

/-- `active` is set when a snapshot is read, and looked at when all its changes, `pending`, have been sent. -/
structure DiffLoop where
  watch : CacheWatch
  active : HashSet EndpointAddress
  pending : List (Change EndpointAddress)
  finished : Bool

namespace DiffLoop

def spawn (watch : CacheWatch) : DiffLoop := ⟨watch, .empty, [], false⟩

def waiting (l : DiffLoop) : Bool := !l.finished && l.pending.isEmpty

/-- `watch.next()` resolves or stays pending. -/
def next (order : IterOrder) (endpoints : WatchMap EndpointsResource) (l : DiffLoop) : DiffLoop :=
  if l.waiting then
    match endpoints.channels[l.watch.channel]? with
    | none => l
    | some c =>
      match l.watch.next c with
      | (.value snapshot, watch) =>
        ⟨watch, snapshot.healthyAddresses, diff order l.active snapshot.healthyAddresses, false⟩
      | (.closed, watch) => { l with watch, finished := true }
      | (.pending, watch) => { l with watch }
  else l

end DiffLoop

end TonicXds
