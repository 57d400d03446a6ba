import GrpcRust.Lib.Bytes
/-!
# Inserting and removing metadata

`IntoMetadataKey::insert` and `AsMetadataKey::remove` of `metadata/map.rs`, on the vector of the map. `V` is the type of
the values.
-/

namespace Grpc

open Lib List

variable {V : Type}

/-- `Vec::swap`. -/
def swap (l : List (Bytes × V)) (i j : Nat) : List (Bytes × V) :=
  match l[i]?, l[j]? with
  | some a, some b => (l.set i b).set j a
  | _, _ => l

structure InsertLoop (V : Type) where
  headers : List (Bytes × V)
  newVal : Option V
  oldVal : Option V
  writeIdx : Nat

def InsertLoop.turn (key : Bytes) (s : InsertLoop V) (readIdx : Nat) : InsertLoop V :=
  match s.headers[readIdx]? with
  | none => s
  | some h =>
    if h.1 = key then
      match s.newVal with
      | some v => ⟨s.headers.set readIdx (h.1, v), none, some h.2, s.writeIdx + 1⟩
      | none => s
    else
      { s with
        headers := if readIdx ≠ s.writeIdx then swap s.headers readIdx s.writeIdx else s.headers
        writeIdx := s.writeIdx + 1 }

def insert (key : Bytes) (val : V) (headers : List (Bytes × V)) : Option V × List (Bytes × V) :=
  let s := (List.range' 0 headers.length).foldl (InsertLoop.turn key) ⟨headers, some val, none, 0⟩
  let kept := s.headers.take s.writeIdx
  (s.oldVal, match s.newVal with
    | some v => kept ++ [(key, v)]
    | none => kept)

def remove (isValidKey : Bytes → Bool) (key : Bytes) (headers : List (Bytes × V)) : Option V × List (Bytes × V) :=
  if isValidKey key then
    let (extracted, headers) := headers.partition (·.1 = key)
    (extracted.head?.map (·.2), headers)
  else (none, headers)

theorem swap_middle (k js t : List (Bytes × V)) (j h : Bytes × V) :
    swap (k ++ j :: js ++ h :: t) (k.length + (j :: js).length) k.length = k ++ h :: js ++ j :: t := by
  have hj : (k ++ j :: js ++ h :: t)[k.length]? = some j := by simp
  have hh : (k ++ j :: js ++ h :: t)[k.length + (j :: js).length]? = some h := by
    rw [← length_append, getElem?_append_right (Nat.le_refl _)]
    simp
  simp only [swap, hj, hh]
  simp

/-- The vector is what is kept, duplicates that were dropped, and what is still to be read. -/
theorem foldl_taken (key : Bytes) (r k junk : List (Bytes × V)) (old : Option V) :
    let s := (List.range' (k.length + junk.length) r.length).foldl (InsertLoop.turn key)
      ⟨k ++ junk ++ r, none, old, k.length⟩
    s.newVal = none ∧ s.oldVal = old ∧ s.headers.take s.writeIdx = k ++ r.filter (·.1 ≠ key) := by
  induction r generalizing k junk with
  | nil => simp
  | cons h t ih =>
    have hh : (k ++ junk ++ h :: t)[k.length + junk.length]? = some h := by
      rw [← length_append, getElem?_append_right (Nat.le_refl _)]
      simp
    rw [length_cons, range'_succ, foldl_cons, InsertLoop.turn]
    simp only [hh]
    by_cases hk : h.1 = key
    · simpa [hk, Nat.add_assoc] using ih k (junk ++ [h])
    · have ih' := fun junk => ih (k ++ [h]) junk
      cases junk with
      | nil => simpa [hk] using ih' []
      | cons j js =>
        have := swap_middle k js t j h
        simp only [hk, if_false, this]
        simpa [hk, Nat.add_right_comm, Nat.add_assoc, Nat.add_comm 1] using ih' (js ++ [j])

theorem foldl_first (key : Bytes) (r k : List (Bytes × V)) (val : V) :
    let s := (List.range' k.length r.length).foldl (InsertLoop.turn key) ⟨k ++ r, some val, none, k.length⟩
    s.oldVal = (r.filter (·.1 = key)).head?.map (·.2) ∧ (match s.newVal with
        | some v => s.headers.take s.writeIdx ++ [(key, v)]
        | none => s.headers.take s.writeIdx) =
        k ++ r.takeWhile (·.1 ≠ key) ++ (key, val) :: (r.dropWhile (·.1 ≠ key)).filter (·.1 ≠ key) := by
  induction r generalizing k with
  | nil => simp
  | cons h t ih =>
    have hh : (k ++ h :: t)[k.length]? = some h := by simp
    rw [length_cons, range'_succ, foldl_cons, InsertLoop.turn]
    simp only [hh]
    by_cases hk : h.1 = key
    · have ht := foldl_taken key t (k ++ [(key, val)]) [] (some h.2)
      simp [hk] at ht ⊢
      simp [ht]
    · simpa [hk] using ih (k ++ [h])

/-- The key has one entry, where its first one was or at the end; no other entry changes or moves. -/
theorem insert_and_remove (isValidKey : Bytes → Bool) (key : Bytes) (val : V) (headers : List (Bytes × V)) :
    insert key val headers = ((headers.filter (·.1 = key)).head?.map (·.2),
        headers.takeWhile (·.1 ≠ key) ++ (key, val) :: (headers.dropWhile (·.1 ≠ key)).filter (·.1 ≠ key)) ∧
      remove isValidKey key headers = if isValidKey key then
        ((headers.filter (·.1 = key)).head?.map (·.2), headers.filter (·.1 ≠ key)) else (none, headers) := by
  obtain ⟨h, h'⟩ := foldl_first key headers [] val
  refine ⟨Prod.ext h h', ?_⟩
  unfold remove
  simp [Function.comp_def]

end Grpc
