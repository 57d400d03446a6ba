import GrpcRust.Client.ResponseHead
/-!
# The CONNECT handshake

`do_connect_handshake` of `client/transport/http_connect/mod.rs` from its first read on, and the reader of
`rewind.rs`. `cuts` says how many bytes each read takes.
-/

namespace HttpConnect

open Lib Bytes List

structure Rewind where
  pre : Option Bytes
  inner : Bytes
deriving DecidableEq

inductive Handshake
  | stream (endpoint : Rewind)
  | closedByProxy
  | status (code : Nat)
  | tooLarge
  | malformed
deriving DecidableEq

def read (capacity cut : Nat) (source : Bytes) : Bytes × Bytes :=
  let n := min capacity (max 1 cut)
  (source.take n, source.drop n)

def readBufSize : Nat := 8192

def readResponse (P : Parser) (cuts : Nat → Nat) : Nat → Bytes → Bytes → Handshake
  | 0, _, _ => .tooLarge
  | fuel + 1, buf, source =>
    let (chunk, source) := read (readBufSize - buf.length) (cuts fuel) source
    if chunk.isEmpty then .closedByProxy
    else
      let buf := buf ++ chunk
      match P.parse buf with
      | .complete len code =>
        if code ≠ some 200 then .status (code.getD 0)
        else if 0 < buf.length - len then .stream ⟨some (buf.drop len), source⟩
        else .stream ⟨none, source⟩
      | .needMore => if readBufSize ≤ buf.length then .tooLarge else readResponse P cuts fuel buf source
      | .error => .malformed

def doConnectHandshake (P : Parser) (cuts : Nat → Nat) (source : Bytes) : Handshake :=
  readResponse P cuts readBufSize [] source

def Rewind.pollRead (r : Rewind) (remaining cut : Nat) : Bytes × Rewind :=
  match r.pre with
  | some (b :: pre) =>
    let rest := (b :: pre).drop (min (pre.length + 1) remaining)
    ((b :: pre).take (min (pre.length + 1) remaining), { r with pre := if rest.isEmpty then none else some rest })
  | _ => ((read remaining cut r.inner).1, ⟨none, (read remaining cut r.inner).2⟩)

def Rewind.left (r : Rewind) : Bytes := r.pre.getD [] ++ r.inner

/-- The outcome that the first bytes decide, as many as fit in the buffer. -/
def Outcome (P : Parser) (data : Bytes) (h : Handshake) : Prop :=
  match P.parse (data.take readBufSize) with
  | .complete len code =>
    if code = some 200 then ∃ r, h = .stream r ∧ r.left = data.drop len else h = .status (code.getD 0)
  | .needMore => h = if readBufSize ≤ data.length then .tooLarge else .closedByProxy
  | .error => h = .malformed

theorem Parser.parse_take (P : Parser) {buf : Bytes} (s : Bytes) (hl : buf.length ≤ readBufSize)
    (h : P.parse buf ≠ .needMore) : P.parse ((buf ++ s).take readBufSize) = P.parse buf := by
  rw [take_append, take_of_length_le hl, P.more _ _ h]

theorem readResponse_outcome (P : Parser) (cuts : Nat → Nat) {f : Nat} {buf source : Bytes}
    (hp : P.parse buf = .needMore) (hf : readBufSize ≤ buf.length + f) (hl : buf.length < readBufSize) :
    Outcome P (buf ++ source) (readResponse P cuts f buf source) := by
  induction f generalizing buf source with
  | zero => omega
  | succ f ih =>
    obtain ⟨n, hn⟩ : ∃ n, n = min (readBufSize - buf.length) (max 1 (cuts f)) := ⟨_, rfl⟩
    have hpos : 0 < n := by omega
    simp only [readResponse, read, ← hn]
    by_cases hs : source = []
    · simp [hs, Outcome, take_of_length_le hl.le, hp, hl]
    have hc : (source.take n).isEmpty = false := by simp [hs]; omega
    have hb : (buf ++ source.take n).length ≤ readBufSize := by simp; omega
    have hd : buf ++ source = buf ++ source.take n ++ source.drop n := by simp
    have hg : buf.length < (buf ++ source.take n).length := by
      have := List.length_pos_iff.2 hs
      simp
      omega
    rw [hc, if_neg Bool.false_ne_true, hd]
    generalize buf ++ source.take n = buf' at hb hg
    generalize source.drop n = source'
    cases hr : P.parse buf' with
    | error => simp [Outcome, P.parse_take _ hb (by simp [hr]), hr]
    | complete len c =>
      have hlen := (P.head _ _ _ hr).1
      simp only [Outcome, P.parse_take source' hb (by simp [hr]), hr]
      by_cases hcd : c = some 200
      · simp only [hcd, ne_eq, not_true, if_false, if_true]
        have hdr : (buf' ++ source').drop len = buf'.drop len ++ source' := drop_append_of_le_length hlen
        split
        · exact ⟨_, rfl, by simp [Rewind.left, hdr]⟩
        · exact ⟨_, rfl, by rw [hdr, drop_of_length_le (by omega)]; rfl⟩
      · simp [hcd]
    | needMore =>
      dsimp only
      split
      · have ht : (buf' ++ source').take readBufSize = buf' := by
          rw [take_append_of_le_length (by omega), take_of_length_le hb]
        simp [Outcome, ht, hr]
        omega
      · exact ih hr (by omega) (by omega)

/-! ## The tunnel -/

theorem Rewind.pollRead_left (r : Rewind) (rm cut : Nat) :
    (r.pollRead rm cut).1 ++ (r.pollRead rm cut).2.left = r.left ∧
      (0 < rm → (r.pollRead rm cut).1 = [] → r.left = []) := by
  have hi : ∀ ir : Bytes, 0 < rm → (read rm cut ir).1 = [] → ir = [] := by
    intro ir hr h
    rw [read, take_eq_nil_iff] at h
    exact h.resolve_left (by omega)
  obtain ⟨_ | _ | ⟨b, pre⟩, ir⟩ := r
  · exact ⟨by simp [pollRead, left, read], hi ir⟩
  · exact ⟨by simp [pollRead, left, read], hi ir⟩
  · refine ⟨?_, fun hr h => ?_⟩
    · simp only [pollRead, left]
      rw [← append_assoc]
      congr 1
      split
      · rename_i he
        have ht := take_append_drop (min (pre.length + 1) rm) (b :: pre)
        rw [List.isEmpty_iff.1 he] at ht
        exact ht
      · exact take_append_drop _ _
    · rw [pollRead, take_eq_nil_iff] at h
      simp at h
      omega

def Rewind.reads (r : Rewind) : List (Nat × Nat) → Bytes × Rewind
  | [] => ([], r)
  | (remaining, cut) :: rest =>
    let (bytes, r) := r.pollRead remaining cut
    let (more, r) := r.reads rest
    (bytes ++ more, r)

theorem Rewind.reads_left (r : Rewind) (cs : List (Nat × Nat)) : (r.reads cs).1 ++ (r.reads cs).2.left = r.left := by
  induction cs generalizing r with
  | nil => rfl
  | cons c rest ih =>
    simp only [reads, append_assoc, ih]
    exact (r.pollRead_left c.1 c.2).1

theorem Parser.parse_head (P : Parser) (d : Bytes) (len : Nat) (code : Option Nat) :
    P.parse (d.take readBufSize) = .complete len code ↔ len ≤ readBufSize ∧ P.parse d = .complete len code := by
  constructor
  · intro h
    have hl := (P.head _ _ _ h).1
    refine ⟨hl.trans (by simp), ?_⟩
    rw [← take_append_drop readBufSize d, P.more _ _ (by simp [h]), h]
  · rintro ⟨hl, h⟩
    have ht := (P.head _ _ _ h).2
    rw [← take_append_drop len (d.take readBufSize), take_take, min_eq_left hl, P.more _ _ (by simp [ht]), ht]

def Handshake.same : Handshake → Handshake → Prop
  | .stream r, .stream r' => r.left = r'.left
  | h, h' => h = h'

variable {P : Parser} {d : Bytes}

theorem Outcome.same {h h' : Handshake} (ho : Outcome P d h) (ho' : Outcome P d h') : h.same h' := by
  unfold Outcome at ho ho'
  cases hp : P.parse (d.take readBufSize) with
  | complete len c =>
    simp only [hp] at ho ho'
    split at ho
    · rename_i hc
      rw [if_pos hc] at ho'
      obtain ⟨r, rfl, hl⟩ := ho
      obtain ⟨r', rfl, hl'⟩ := ho'
      exact hl.trans hl'.symm
    · rename_i hc
      rw [if_neg hc] at ho'
      rw [ho, ho']
      rfl
  | needMore =>
    simp only [hp] at ho ho'
    rw [ho, ho']
    split <;> rfl
  | error =>
    simp only [hp] at ho ho'
    rw [ho, ho']
    rfl

theorem Outcome.left_eq {r : Rewind} (ho : Outcome P d (.stream r)) :
    ∃ len ≤ readBufSize, P.parse d = .complete len (some 200) ∧ r.left = d.drop len := by
  unfold Outcome at ho
  split at ho
  · rename_i len c hp
    split at ho
    · rename_i hc
      obtain ⟨r', he, hl⟩ := ho
      cases he
      obtain ⟨hle, hd⟩ := (P.parse_head ..).1 hp
      exact ⟨len, hle, hc ▸ hd, hl⟩
    · cases ho
  · split at ho <;> cases ho
  · cases ho

theorem Outcome.stream_iff {h : Handshake} (ho : Outcome P d h) :
    (∃ r, h = .stream r) ↔ ∃ len ≤ readBufSize, P.parse d = .complete len (some 200) := by
  constructor
  · rintro ⟨r, rfl⟩
    obtain ⟨len, hle, hp, -⟩ := ho.left_eq
    exact ⟨len, hle, hp⟩
  · rintro ⟨len, hle, hp⟩
    rw [Outcome, (P.parse_head ..).2 ⟨hle, hp⟩] at ho
    obtain ⟨r, hr, -⟩ := ho
    exact ⟨r, hr⟩

def established : Bytes := utf8 "HTTP/1.1 200 Connection Established\r\n\r\n"

end HttpConnect
