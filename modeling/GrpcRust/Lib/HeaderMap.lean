import GrpcRust.Lib.Bytes
import GrpcRust.Lib.FirstOccurrences
/-!
# HTTP header maps

The `http` crate's `HeaderMap` is the list of its entries; the order of different names means nothing.
-/

namespace Lib

open Bytes List

/-! ## Names and values -/

def isTokenByte (b : UInt8) : Bool :=
  (48 ≤ b && b ≤ 57) || (65 ≤ b && b ≤ 90) || (97 ≤ b && b ≤ 122) || (utf8 "!#$%&'*+-.^_`|~").elem b

def maxHeaderNameLen : Nat := 65535

/-- `HeaderName::from_bytes`: a name is not empty, not too long, and stored in lower case. -/
def headerName? (name : Bytes) : Option Bytes :=
  if !name.isEmpty && name.length ≤ maxHeaderNameLen && name.all isTokenByte then
    some name.toAsciiLowercase
  else
    none

def headerStr? (value : Bytes) : Option Bytes :=
  if value.all fun b => (32 ≤ b && b < 127) || b == 9 then some value else none

def headerValue? (value : Bytes) : Option Bytes :=
  if value.all fun b => (32 ≤ b && b != 127) || b == 9 then some value else none

theorem headerValue?_of_visible {value : Bytes} (h : ∀ b ∈ value, 32 ≤ b ∧ b < 127) :
    headerValue? value = some value := by
  unfold headerValue?
  rw [if_pos]
  refine List.all_eq_true.2 fun b hb => ?_
  obtain ⟨hl, hh⟩ := h b hb
  have hne : b ≠ 127 := by
    rintro rfl
    exact absurd hh (by decide)
  simp [hl, hne]

/-! ## Maps -/

structure HeaderMap where
  entries : List (Bytes × Bytes)
deriving DecidableEq

namespace HeaderMap

variable (headers : HeaderMap) (name : Bytes) (key : Bytes) {hs : HeaderMap} {e : Bytes × Bytes}

def valuesOf : List Bytes := (headers.entries.filter (·.1 == name)).map (·.2)

def get : Option Bytes := (headerName? key).bind fun name => (headers.valuesOf name).head?

def getAll : List Bytes := ((headerName? key).map headers.valuesOf).getD []

def empty : HeaderMap := { entries := [] }

def remove : HeaderMap where
  entries := headers.entries.filter (·.1 != name)

def insert (name value : Bytes) : HeaderMap where
  entries := (headers.remove name).entries ++ [(name, value)]

def extend (headers other : HeaderMap) : HeaderMap where
  entries := headers.entries.filter (fun e => (other.valuesOf e.1).isEmpty) ++ other.entries

/-! ### The values of a name after an update -/

section
variable (hs o : HeaderMap) {name name' : Bytes} (v : Bytes)

variable (n : Bytes)

@[simp] theorem valuesOf_empty : empty.valuesOf n = [] := rfl

@[simp] theorem valuesOf_remove_self : (hs.remove n).valuesOf n = [] := by simp [valuesOf, remove, filter_filter]

theorem valuesOf_remove_of_ne (h : name' ≠ name) : (hs.remove name).valuesOf name' = hs.valuesOf name' := by
  have hf : (hs.entries.filter (·.1 != name)).filter (·.1 == name') = hs.entries.filter (·.1 == name') := by
    rw [filter_filter]
    refine filter_congr fun e _ => ?_
    by_cases he : e.1 = name'
    · simp [he, h]
    · simp [he]
  simp only [valuesOf, remove, hf]

@[simp] theorem valuesOf_insert_self : (hs.insert n v).valuesOf n = [v] := by
  have h := hs.valuesOf_remove_self n
  simp only [valuesOf, insert, filter_append, map_append] at h ⊢
  rw [h]
  simp

theorem valuesOf_insert_of_ne (h : name' ≠ name) : (hs.insert name v).valuesOf name' = hs.valuesOf name' := by
  have hr := hs.valuesOf_remove_of_ne h
  simp only [valuesOf, insert, filter_append, map_append] at hr ⊢
  rw [hr]
  simp [Ne.symm h]

theorem valuesOf_extend (name : Bytes) : (hs.extend o).valuesOf name =
      if o.valuesOf name = [] then hs.valuesOf name else o.valuesOf name := by
  have hf : (hs.entries.filter fun e => (o.valuesOf e.1).isEmpty).filter (·.1 == name) =
      hs.entries.filter fun e => (o.valuesOf name).isEmpty && e.1 == name := by
    rw [filter_filter]
    refine filter_congr fun e _ => ?_
    by_cases he : e.1 = name
    · rw [he, Bool.and_comm]
    · have hne : (e.1 == name) = false := beq_eq_false_iff_ne.2 he
      rw [hne, Bool.false_and, Bool.and_false]
  have ha : (hs.extend o).valuesOf name =
      (hs.entries.filter fun e => (o.valuesOf name).isEmpty && e.1 == name).map (·.2) ++ o.valuesOf name := by
    simp only [valuesOf, extend, filter_append, map_append] at hf ⊢
    rw [hf]
  rw [ha]
  split
  · rename_i h
    rw [h, append_nil]
    simp [valuesOf]
  · rename_i h
    simp [h]

end

def iter : List (Bytes × Bytes) :=
  (headers.entries.map (·.1)).eraseDups.flatMap fun name => (headers.valuesOf name).map (name, ·)

theorem mem_of_mem_iter (h : e ∈ hs.iter) : e ∈ hs.entries := by
  obtain ⟨n, -, hname⟩ := List.mem_flatMap.1 h
  obtain ⟨v, hv, rfl⟩ := List.mem_map.1 hname
  obtain ⟨e, he, rfl⟩ := List.mem_map.1 hv
  obtain ⟨hmem, heq⟩ := List.mem_filter.1 he
  exact eq_of_beq heq ▸ hmem

theorem valuesOf_iter (hs : HeaderMap) (name : Bytes) :
    (hs.iter.filter (·.1 == name)).map (·.2) = hs.valuesOf name := by
  have hp : ∀ ns : List Bytes, ns.Nodup →
      ns.flatMap (fun n => if n = name then hs.valuesOf name else []) = if name ∈ ns then hs.valuesOf name else [] := by
    intro ns hnd
    induction ns with
    | nil => rfl
    | cons n ns ih =>
      obtain ⟨hnt, hnd⟩ := List.nodup_cons.1 hnd
      rw [flatMap_cons, ih hnd]
      by_cases hn : n = name
      · subst hn
        simp [hnt]
      · simp [hn, Ne.symm hn]
  have hv : ∀ n, (((hs.valuesOf n).map (n, ·)).filter (·.1 == name)).map (·.2) =
      if n = name then hs.valuesOf name else [] := by
    intro n
    by_cases hn : n = name
    · subst hn
      simp [filter_map, Function.comp_def]
    · simp [filter_map, Function.comp_def, hn]
  unfold iter
  rw [filter_flatMap, map_flatMap]
  simp only [hv]
  rw [hp _ (nodup_eraseDups _)]
  split
  · rfl
  · rename_i hnt
    refine (List.map_eq_nil_iff.2 (List.filter_eq_nil_iff.2 fun e he heq => hnt ?_)).symm
    rw [mem_eraseDups]
    exact eq_of_beq heq ▸ mem_map_of_mem he

/-- What the types of the crate ensure: names are names in lower case, values are values. -/
def Valid : Prop := ∀ e ∈ headers.entries, headerName? e.1 = some e.1 ∧ headerValue? e.2 = some e.2

def NamesDistinct : Prop := (headers.entries.map (·.1)).Nodup

theorem NamesDistinct.insert (h : hs.NamesDistinct) (name value : Bytes) : (hs.insert name value).NamesDistinct := by
  unfold NamesDistinct at h ⊢
  simp only [HeaderMap.insert, HeaderMap.remove, map_append, map_cons, map_nil]
  refine List.nodup_append.2 ⟨(h.sublist (filter_sublist.map _)), nodup_singleton _, ?_⟩
  -- the old entries of the name have been removed
  rintro n hn n' hn' rfl
  obtain rfl := List.mem_singleton.1 hn'
  obtain ⟨e, he, rfl⟩ := List.mem_map.1 hn
  simpa using (List.mem_filter.1 he).2

theorem valuesOf_of_namesDistinct (h : hs.NamesDistinct)
    (he : e ∈ hs.entries) : hs.valuesOf e.1 = [e.2] := by
  rcases hs with ⟨es⟩
  simp only [NamesDistinct] at h he
  simp only [valuesOf]
  induction es with
  | nil => cases he
  | cons e' es ih =>
    rw [map_cons, nodup_cons] at h
    obtain ⟨hn, hnd⟩ := h
    rcases List.mem_cons.1 he with rfl | he
    · have hnone : es.filter (·.1 == e.1) = [] := by
        refine List.filter_eq_nil_iff.2 fun x hx heq => hn ?_
        rw [← eq_of_beq heq]
        exact mem_map_of_mem hx
      simp [hnone]
    · have hne : e'.1 ≠ e.1 := by
        intro heq
        rw [heq] at hn
        exact hn (mem_map_of_mem he)
      rw [filter_cons_of_neg (by simpa using hne)]
      exact ih hnd he

theorem iter_of_namesDistinct (h : hs.NamesDistinct) : hs.iter = hs.entries := by
  unfold iter
  rw [eraseDups_of_nodup h, flatMap_map]
  calc hs.entries.flatMap (fun e => (hs.valuesOf e.1).map (e.1, ·))
      = hs.entries.flatMap fun e => [e] := flatMap_congr fun e he => by rw [valuesOf_of_namesDistinct h he]; rfl
    _ = hs.entries := flatMap_singleton' _

theorem insert_of_not_mem {name v : Bytes} (h : name ∉ hs.entries.map (·.1)) :
    hs.insert name v = { entries := hs.entries ++ [(name, v)] } := by
  have hk : hs.entries.filter (·.1 != name) = hs.entries := by
    refine List.filter_eq_self.2 fun e he => ?_
    have hne : e.1 ≠ name := fun heq => h (heq ▸ mem_map_of_mem he)
    simpa using hne
  simp only [insert, remove, hk]

end HeaderMap

end Lib
