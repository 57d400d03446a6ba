import GrpcRust.TonicWeb.Script
/-!
# Responses cut inside a frame

With less than a header left over, the end of the body is the end of the stream.
-/

namespace TonicWeb

open Lib Lib.Bytes Tonic List Held

def isWebFlag (flag : UInt8) : Bool := isMessageFlag flag || flag == trailersBit

/-- The whole frames at the head of the bytes, of messages and of trailers, and what is left after them. -/
structure Split (bytes : Bytes) (frames : List Frame) (rest : Bytes) : Prop where
  web : ∀ frame ∈ frames, isWebFlag frame.flag = true
  notWhole : ∀ (frame : Frame) (more : Bytes), isWebFlag frame.flag = true → rest ≠ frame.bytes ++ more
  eq : bytes = framesBytes frames ++ rest

def MalformedTrailers (frames : List Frame) : Prop :=
  ∃ frame ∈ frames, frame.flag = trailersBit ∧ ∃ e, decodeTrailersFrame frame.bytes = .error e

/-- What a client takes for an error: a header and no whole frame after the frames, trailers it cannot read, or an
error of the body. -/
def Cause (rest : Bytes) (frames : List Frame) (body : List Polled) : Prop :=
  5 ≤ rest.length ∨ MalformedTrailers frames ∨ ∃ e, .error e ∈ body

section
variable {rest bytes more : Bytes} {frames : List Frame}

theorem exists_split (bytes : Bytes) : ∃ frames rest, Split bytes frames rest := by
  induction hn : bytes.length using Nat.strong_induction_on generalizing bytes with
  | _ n ih =>
    subst hn
    by_cases h : ∃ (frame : Frame) (more : Bytes), isWebFlag frame.flag = true ∧ bytes = frame.bytes ++ more
    · obtain ⟨frame, more, hf, rfl⟩ := h
      have hl := frame.length_bytes
      obtain ⟨frames, rest, hs⟩ := ih more.length (by rw [length_append]; omega) more rfl
      refine ⟨frame :: frames, rest, List.forall_mem_cons.2 ⟨hf, hs.web⟩, hs.notWhole, ?_⟩
      rw [framesBytes_cons, append_assoc, ← hs.eq]
    · exact ⟨[], bytes, nofun, fun frame more hf heq => h ⟨frame, more, hf, heq⟩, rfl⟩

theorem Split.drop {done : List Frame} (hd : ∀ f ∈ done, isWebFlag f.flag = true)
    (h : Split (framesBytes done ++ bytes) frames rest) : ∃ todo, frames = done ++ todo ∧ Split bytes todo rest := by
  obtain ⟨todo, rfl, ht⟩ := exists_todo_frames (p := fun flag => isWebFlag flag = true) hd h.notWhole h.eq
  exact ⟨todo, rfl, fun f hf => h.web f (mem_append_right _ hf), h.notWhole, ht⟩

theorem Messages.web {fs : List Frame} (h : Messages fs) : ∀ f ∈ fs, isWebFlag f.flag = true := by
  intro f hf
  simp [isWebFlag, h f hf]

theorem malformedTrailers_append {done todo : List Frame} (hd : ¬ MalformedTrailers done) :
    MalformedTrailers (done ++ todo) ↔ MalformedTrailers todo := by
  constructor
  · rintro ⟨f, hf, hm⟩
    rcases List.mem_append.1 hf with hf | hf
    · exact absurd ⟨f, hf, hm⟩ hd
    · exact ⟨f, hf, hm⟩
  · rintro ⟨f, hf, hm⟩
    exact ⟨f, mem_append_right _ hf, hm⟩

theorem Messages.not_malformed {fs : List Frame} (h : Messages fs) : ¬ MalformedTrailers fs := by
  rintro ⟨f, hf, hflag, -⟩
  have := h f hf
  rw [hflag] at this
  exact absurd this (by decide)

/-- A header that no whole frame begins with is what is left. -/
theorem Split.header_left (h : Split (bytes ++ more) frames rest) {flag : UInt8} {len : Nat} {p : Bytes}
    (hh : header? bytes = some (flag, len, p)) (hn : isWebFlag flag = false ∨ (p ++ more).length < len) :
    5 ≤ rest.length := by
  have ha := header?_append hh more
  rw [h.eq] at ha
  cases frames with
  | nil =>
    have := length_of_header? ha
    rw [framesBytes_nil, nil_append] at this
    omega
  | cons f frames =>
    rw [framesBytes_cons, append_assoc, f.header?_bytes] at ha
    obtain ⟨rfl, rfl, hp⟩ : _ ∧ _ ∧ _ := by simpa using ha
    rcases hn with hn | hn
    · rw [h.web f mem_cons_self] at hn
      cases hn
    · rw [← hp, length_append] at hn
      omega

theorem cause_cons {polled : Polled} {body : List Polled} (hp : ∀ e, polled ≠ .error e) :
    Cause rest frames (polled :: body) ↔ Cause rest frames body := by
  have he : (∃ e, Polled.error e ∈ polled :: body) ↔ ∃ e, Polled.error e ∈ body :=
    exists_congr fun e => by simp [(hp e).symm]
  unfold Cause
  rw [he]

end

/-! ## One turn -/

def Held.size (h : Held) : Nat := 2 * h.decoded.length + if h.trailers.isSome then 1 else 0

/-- A turn fails for a cause, ends without one, and otherwise leaves the causes as they are. -/
inductive Goes (rest more : Bytes) (eof : Bool) (frames : List Frame) (h : Held) :
    Option (Poll Failure HttpFrame) × Held → Prop
  | failed (f : Failure) (h' : Held) (cause : 5 ≤ rest.length ∨ MalformedTrailers frames) :
      Goes rest more eof frames h (some (.failed f), h')
  | item {frame : HttpFrame} {h' : Held} {todo : List Frame} (split : Split (h'.decoded ++ more) todo rest)
      (same : MalformedTrailers frames ↔ MalformedTrailers todo) (smaller : h'.size < h.size) :
      Goes rest more eof frames h (some (.item frame), h')
  | again (notEof : eof = false) : Goes rest more eof frames h (none, h)
  | ended (atEof : eof = true) (short : rest.length < 5) (none : frames = []) :
      Goes rest more eof frames h (some .ended, h)

section
variable {rest more : Bytes} {eof : Bool} {h : Held} {frames : List Frame}

theorem trailersOrMore_goes (hs : Split (h.decoded ++ more) frames rest)
    (he : eof = true → rest.length < 5 ∧ frames = []) : Goes rest more eof frames h (h.trailersOrMore eof) := by
  unfold trailersOrMore
  cases ht : h.trailers with
  | none =>
    cases eof with
    | false => exact .again rfl
    | true => exact .ended rfl (he rfl).1 (he rfl).2
  | some ts =>
    refine .item hs Iff.rfl ?_
    simp [Held.size, ht]

theorem trailersFound_goes {done : List Frame} (hm : Messages done) {r : Bytes}
    (hd : h.decoded = framesBytes done ++ r) {len : Nat} {p : Bytes}
    (hh : header? r = some (trailersBit, len, p)) (hs : Split (h.decoded ++ more) frames rest)
    (he : eof = true → more = []) :
    Goes rest more eof frames h (trailersFound { h with decoded := r } eof (framesBytes done)) := by
  have hln := length_of_header? hh
  have hsz : h.size = 2 * ((framesBytes done).length + r.length) + if h.trailers.isSome then 1 else 0 := by
    rw [Held.size, hd, length_append]
  have hs' := hs
  rw [hd, append_assoc] at hs'
  obtain ⟨todo, rfl, hsr⟩ := hs'.drop hm.web
  by_cases hc : p.length < len
  · rw [trailersFound_cut hh hc]
    by_cases hn : framesBytes done = []
    · have hsame : { h with decoded := r } = h := by
        rw [hn, nil_append] at hd
        rw [← hd]
      rw [hn, hsame, dataOrTrailers_nil]
      cases eof with
      | true =>
        refine .failed _ _ (.inl (hsr.header_left hh (.inr ?_)))
        rw [he rfl, append_nil]
        exact hc
      | false => exact trailersOrMore_goes hs nofun
    · have hne : (framesBytes done).isEmpty = false := by simpa using hn
      rw [hne, Bool.and_false, if_neg Bool.false_ne_true, dataOrTrailers_of_ne_nil _ _ hn]
      have hp := List.length_pos_iff.2 hn
      refine .item hsr (malformedTrailers_append hm.not_malformed) ?_
      rw [hsz]
      simp only [Held.size]
      omega
  · obtain ⟨heq, hlt⟩ := eq_of_header? hh
    obtain ⟨fr, hfl, hby⟩ := Frame.exists_bytes_append_drop trailersBit hlt (not_lt.1 hc)
    rw [hby] at heq
    have ht : fr.bytes.length = 5 + len := by
      have := congrArg List.length heq
      simp only [length_append, length_drop] at this
      omega
    have htk : r.take (5 + len) = fr.bytes := by rw [heq, ← ht, take_left]
    have hdr : r.drop (5 + len) = p.drop len := by rw [heq, ← ht, drop_left]
    obtain ⟨todo, rfl, hsp⟩ : ∃ t, todo = [fr] ++ t ∧ Split (p.drop len ++ more) t rest := by
      apply Split.drop
      · intro f hf
        obtain rfl := List.mem_singleton.1 hf
        rw [hfl]
        rfl
      · rw [framesBytes_cons, framesBytes_nil, append_nil, ← append_assoc, ← heq]
        exact hsr
    rw [trailersFound_whole hh (not_lt.1 hc)]
    rw [htk, hdr]
    rcases hr : decodeTrailersFrame fr.bytes with e | _ | trailers
    · exact .failed _ _ (.inr ⟨fr, by simp, hfl, e, hr⟩)
    · exact absurd hr (decodeTrailersFrame_bytes fr)
    · dsimp only
      have hok : ¬ MalformedTrailers [fr] := by
        rintro ⟨f, hf, -, e, he⟩
        obtain rfl := List.mem_singleton.1 hf
        rw [hr] at he
        cases he
      have hsame : MalformedTrailers (done ++ ([fr] ++ todo)) ↔ MalformedTrailers todo := by
        rw [malformedTrailers_append hm.not_malformed, malformedTrailers_append hok]
      have hsmaller (trailers : Option HeaderMap) :
          Held.size { decoded := p.drop len, trailers := trailers } < h.size := by
        rw [hsz]
        simp only [Held.size, length_drop]
        split <;> omega
      by_cases hn : framesBytes done = []
      · rw [hn, dataOrTrailers_nil]
        exact .item hsp hsame (hsmaller none)
      · rw [dataOrTrailers_of_ne_nil _ _ hn]
        exact .item hsp hsame (hsmaller (some trailers))

theorem scan_goes (hs : Split (h.decoded ++ more) frames rest) (he : eof = true → more = []) :
    Goes rest more eof frames h (h.scan eof) := by
  rcases h with ⟨d, s⟩
  have hsc := findTrailers_scanned d
  unfold Held.scan
  dsimp only at hs ⊢
  generalize findTrailers d = f at hsc
  cases hsc with
  | @done done r hd hsh =>
    have hs' := hs
    rw [append_assoc] at hs'
    obtain ⟨todo, rfl, hsr⟩ := hs'.drop hd.web
    dsimp only
    split
    · rename_i hz
      obtain rfl := framesBytes_eq_nil.1 (List.length_eq_zero_iff.1 hz)
      refine trailersOrMore_goes hs fun heof => ?_
      -- Fewer than five bytes hold no frame.
      rw [he heof, append_nil] at hsr
      cases todo with
      | nil =>
        have := hsr.eq
        rw [framesBytes_nil, nil_append] at this
        exact ⟨this ▸ hsh, rfl⟩
      | cons f todo =>
        have := congrArg List.length hsr.eq
        rw [framesBytes_cons, length_append, length_append, f.length_bytes] at this
        omega
    · rename_i hp
      rw [take_left, drop_left]
      refine .item hsr (malformedTrailers_append hd.not_malformed) ?_
      simp only [Held.size, length_append]
      omega
  | @trailer done r p len hd hh =>
    dsimp only
    rw [take_left, drop_left]
    exact trailersFound_goes hd rfl hh hs he
  | @incomplete done r p flag len hd hh hf hsh =>
    rw [append_assoc] at hs
    obtain ⟨todo, rfl, hsr⟩ := hs.drop hd.web
    cases eof with
    | true =>
      refine .failed _ _ (.inl (hsr.header_left hh (.inr ?_)))
      rw [he rfl, append_nil]
      exact hsh
    | false => exact .again rfl
  | @invalid done r p flag len hd hh hn hn' =>
    rw [append_assoc] at hs
    obtain ⟨todo, rfl, hsr⟩ := hs.drop hd.web
    refine .failed _ _ (.inl (hsr.header_left hh (.inl ?_)))
    simp [isWebFlag, hn, hn']

end

/-! ## Whole responses -/

def remaining (h : Held) (body : List Polled) : Nat := h.size + 2 * (dataOf body).length + 2 * body.length

/-- The same for a poll, which may take several turns. -/
inductive PollGoes (rest : Bytes) (frames : List Frame) (start : List Polled) (bound : Nat) :
    Poll Failure HttpFrame × Held × List Polled → Prop
  | failed (f : Failure) (h : Held) (body : List Polled) (cause : Cause rest frames start) :
      PollGoes rest frames start bound (.failed f, h, body)
  | pending {h : Held} {body : List Polled} (split : Split (h.decoded ++ dataOf body) frames rest)
      (same : Cause rest frames start ↔ Cause rest frames body) (smaller : remaining h body < bound) :
      PollGoes rest frames start bound (.pending, h, body)
  | item {frame : HttpFrame} {h : Held} {body : List Polled} {todo : List Frame}
      (split : Split (h.decoded ++ dataOf body) todo rest)
      (same : Cause rest frames start ↔ Cause rest todo body) (smaller : remaining h body < bound) :
      PollGoes rest frames start bound (.item frame, h, body)
  | ended (h : Held) (body : List Polled) (clean : ¬ Cause rest frames start) :
      PollGoes rest frames start bound (.ended, h, body)

section
variable {rest : Bytes} {b : List Polled} {frames : List Frame}

theorem PollGoes.cons {polled : Polled} (hp : ∀ e, polled ≠ .error e) {bound bound' : Nat} (hle : bound ≤ bound')
    {result : Poll Failure HttpFrame × Held × List Polled} (h : PollGoes rest frames b bound result) :
    PollGoes rest frames (polled :: b) bound' result := by
  have hc : Cause rest frames (polled :: b) ↔ Cause rest frames b := cause_cons hp
  cases h with
  | failed f h body cause => exact .failed f h body (hc.2 cause)
  | pending split same smaller => exact .pending split (hc.trans same) (smaller.trans_le hle)
  | item split same smaller => exact .item split (hc.trans same) (smaller.trans_le hle)
  | ended h body clean => exact .ended h body (mt hc.1 clean)

theorem cause_congr {todo : List Frame} (h : MalformedTrailers frames ↔ MalformedTrailers todo) :
    Cause rest frames b ↔ Cause rest todo b := by
  unfold Cause
  rw [h]

theorem pollLoop_goes {h : Held} (hs : Split (h.decoded ++ dataOf b) frames rest) :
    PollGoes rest frames b (remaining h b) (h.pollLoop b) := by
  induction b generalizing h with
  | nil =>
    have hg : Goes rest [] true frames h (h.scan true) := scan_goes hs fun _ => rfl
    simp only [pollLoop]
    generalize h.scan true = r at hg
    cases hg with
    | failed f h' cause =>
      refine .failed f h' [] ?_
      rcases cause with hl | hm
      · exact .inl hl
      · exact .inr (.inl hm)
    | item split same smaller => exact .item split (cause_congr same) (by simpa [remaining] using smaller)
    | again hn => cases hn
    | ended _ short hnone =>
      refine .ended h [] ?_
      subst hnone
      rintro (hl | ⟨f, hf, -⟩ | ⟨e, he⟩)
      · omega
      · cases hf
      · cases he
  | cons p b ih =>
    simp only [pollLoop]
    cases p with
    | pending => exact .pending hs (cause_cons fun _ he => by cases he) (by simp [remaining, Polled.data])
    | error e => exact .failed _ _ _ (.inr (.inr ⟨e, mem_cons_self⟩))
    | frame frame =>
      have hne : ∀ e, Polled.frame frame ≠ .error e := fun _ he => by cases he
      cases frame with
      | trailers trailers =>
        refine (ih (h := h.storeTrailers trailers) hs).cons hne ?_
        simp only [remaining, Held.size, storeTrailers, dataOf_cons, Polled.data, nil_append, length_cons,
          Option.isSome_some, if_true]
        omega
      | data bs =>
        have hs' : Split ((h.decoded ++ bs) ++ dataOf b) frames rest := (append_assoc _ _ _).symm ▸ hs
        have hsize : remaining { h with decoded := h.decoded ++ bs } b + 2 = remaining h (.frame (.data bs) :: b) := by
          simp only [remaining, Held.size, dataOf_cons, Polled.data, length_append, length_cons]
          omega
        have hg : Goes rest (dataOf b) false frames { h with decoded := h.decoded ++ bs }
            (Held.scan { h with decoded := h.decoded ++ bs } false) :=
          scan_goes hs' fun h => absurd h Bool.false_ne_true
        simp only [Polled.poll, Call.passed, Held.turn]
        generalize Held.scan { h with decoded := h.decoded ++ bs } false = r at hg
        cases hg with
        | failed f h' cause =>
          refine .failed f h' b ?_
          rcases cause with hl | hm
          · exact .inl hl
          · exact .inr (.inl hm)
        | item split same smaller =>
          refine .item split ((cause_cons hne).trans (cause_congr same)) ?_
          rw [← hsize]
          unfold remaining
          omega
        | again _ => exact (ih hs').cons hne (by omega)
        | ended hn => cases hn

/-- A client gets to the end or to an error, and to an error exactly if there is a cause. -/
theorem yields_of_split {h : Held} (hs : Split (h.decoded ++ dataOf b) frames rest) :
    ∃ im failure, Yields Call.poll (Call.clientState h b) im failure ∧ (failure.isSome ↔ Cause rest frames b) := by
  induction hn : remaining h b using Nat.strong_induction_on generalizing h b frames with
  | _ n ih =>
    subst hn
    by_cases hst : h.decoded ≠ [] ∨ h.trailers = none
    · have hg := pollLoop_goes hs
      have hp := Call.poll_clientState hst b
      generalize h.pollLoop b = r at hg hp
      cases hg with
      | failed f h' b' cause => exact ⟨[], some f, (yields_of_failed hp).2 ⟨rfl, rfl⟩, iff_of_true rfl cause⟩
      | pending split same smaller =>
        obtain ⟨im, failure, hy, hc⟩ := ih _ smaller split rfl
        exact ⟨im, failure, (yields_of_pending hp).2 hy, hc.trans same.symm⟩
      | @item fr _ _ _ split same smaller =>
        obtain ⟨im, failure, hy, hc⟩ := ih _ smaller split rfl
        exact ⟨fr :: im, failure, (yields_of_item hp).2 ⟨_, rfl, hy⟩, hc.trans same.symm⟩
      | ended h' b' clean =>
        exact ⟨[], none, (yields_of_ended hp).2 ⟨rfl, rfl⟩, iff_of_false Bool.false_ne_true clean⟩
    · -- trailers stored behind an empty buffer
      rcases h with ⟨decoded, st⟩
      simp only [ne_eq, not_or, not_not] at hst
      obtain ⟨rfl, hsm⟩ := hst
      obtain ⟨trailers, rfl⟩ := Option.ne_none_iff_exists'.1 hsm
      obtain ⟨im, failure, hy, hc⟩ :=
        ih (h := { decoded := [], trailers := none }) _ (by simp [remaining, Held.size]) hs rfl
      exact ⟨_, failure, (yields_of_item (Call.poll_stored trailers b)).2 ⟨_, rfl, hy⟩, hc⟩

end

/-- A client fails on a response exactly if five or more bytes are left after the whole frames, if it cannot read
trailers, or on an error of the body; every response is frames and a rest. -/
theorem truncated_response_fails (body : List Polled) : (∃ frames rest, Split (dataOf body) frames rest) ∧
    ∀ frames rest, Split (dataOf body) frames rest →
      ((∃ im f, Yields Call.poll (.clientResponse body) im (some f)) ↔ Cause rest frames body) := by
  refine ⟨exists_split _, fun frames rest hs => ?_⟩
  obtain ⟨im, failure, hy, hc⟩ := yields_of_split (h := { decoded := [], trailers := none }) hs
  rw [← hc]
  constructor
  · rintro ⟨im', f, hy'⟩
    rw [(hy.unique hy').2]
    rfl
  · intro hsome
    obtain ⟨f, rfl⟩ := Option.isSome_iff_exists.1 hsome
    exact ⟨im, f, hy⟩

/-- The header of a trailers frame, without its block. -/
theorem truncated_response_fails_trailers :
    let fr : Frame := { flag := 0, payload := [7], short := by decide }
    let b : List Polled := [.frame (.data [0, 0, 0]), .frame (.data [0, 1, 7, 0x80, 0, 0, 0, 3])]
    dataOf b = framesBytes [fr] ++ [0x80, 0, 0, 0, 3] ∧ ∃ im fl, Yields Call.poll (.clientResponse b) im (some fl) := by
  intro fr b
  have hd : dataOf b = framesBytes [fr] ++ [0x80, 0, 0, 0, 3] := by decide
  refine ⟨hd, ((truncated_response_fails b).2 [fr] [0x80, 0, 0, 0, 3] ⟨?_, ?_, hd⟩).2 (.inl (by decide))⟩
  · intro f hf
    obtain rfl := List.mem_singleton.1 hf
    rfl
  · intro f more _ heq
    have hf := f.header?_bytes more
    rw [← heq] at hf
    obtain ⟨hl, hn⟩ : 3 = f.payload.length ∧ [] = f.payload ++ more :=
      Prod.mk.inj (congrArg Prod.snd (Option.some.inj hf))
    rw [(List.append_eq_nil_iff.1 hn.symm).1] at hl
    cases hl

/-- A response that stops inside a header ends as if it were whole. -/
theorem truncated_header_ends :
    let b : List Polled := [.frame (.data [0, 0, 0, 0, 1, 7, 0x80, 0, 0])]
    Yields Call.poll (.clientResponse b) [.data [0, 0, 0, 0, 1, 7]] none ∧
      ¬∃ frames : List Frame, dataOf b = framesBytes frames := by
  intro b
  refine ⟨⟨2, by decide⟩, ?_⟩
  rintro ⟨frames, h⟩
  have hb : dataOf b = Frame.bytes { flag := 0, payload := [7], short := by decide } ++ [0x80, 0, 0] := by decide
  rw [hb] at h
  cases frames with
  | nil => cases h
  | cons f frames =>
    obtain ⟨_, hrest⟩ := Frame.bytes_append_inj h
    cases frames with
    | nil => cases hrest
    | cons f frames =>
      have hl := congrArg List.length hrest
      simp [f.length_bytes] at hl
      omega

end TonicWeb
