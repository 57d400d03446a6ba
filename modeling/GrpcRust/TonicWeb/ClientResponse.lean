import GrpcRust.TonicWeb.Script
/-!
# A response, however it is cut

A turn takes frames off the head of what is buffered and still to come.
-/

namespace TonicWeb

open Lib Lib.Bytes Tonic List Held

/-- A turn on a response of which `frames` and the trailers frame are left, part buffered and `more` to come. -/
inductive Read (frames : List Frame) (tframe : Frame) (trailers : HeaderMap) (decoded more : Bytes) :
    Option (Poll Failure HttpFrame) × Held → Prop
  | again (left : decoded ++ more = framesBytes frames ++ tframe.bytes) :
      Read frames tframe trailers decoded more (none, { decoded := decoded, trailers := none })
  | messages {done todo : List Frame} {rest : Bytes} (split : frames = done ++ todo) (nonempty : done ≠ [])
      (left : rest ++ more = framesBytes todo ++ tframe.bytes) :
      Read frames tframe trailers decoded more
        (some (.item (.data (framesBytes done))), { decoded := rest, trailers := none })
  | allMessages (ended : more = []) : Read frames tframe trailers decoded more
        (some (.item (.data (framesBytes frames))), { decoded := [], trailers := some trailers })
  | trailers (last : frames = []) (ended : more = []) : Read frames tframe trailers decoded more
        (some (.item (.trailers trailers)), { decoded := [], trailers := none })

section
variable {fs : List Frame} {tf : Frame} {trailers : HeaderMap} {decoded more : Bytes} {eof : Bool}

theorem trailersFound_read (hd : decodeTrailersFrame tf.bytes = .ok (some trailers)) {r m : Bytes}
    (hl : r ++ m = tf.bytes) {p : Bytes} {len : Nat} (hh : header? r = some (trailersBit, len, p))
    (hln : p ++ m = tf.payload) (hln' : len = tf.payload.length) (he : eof = true → m = []) :
    Read fs tf trailers (framesBytes fs ++ r) m
      (trailersFound { decoded := r, trailers := none } eof (framesBytes fs)) := by
  have hp := congrArg List.length hln
  rw [length_append] at hp
  cases m with
  | nil =>
    -- the whole frame is there
    rw [append_nil] at hl
    have hlg := length_of_header? hh
    have hw : r.length = 5 + len := by
      simp only [length_nil] at hp
      omega
    rw [trailersFound_whole hh (by simp only [length_nil] at hp; omega)]
    rw [← hw, take_length, drop_length, hl, hd]
    dsimp only
    by_cases hm : framesBytes fs = []
    · rw [hm, dataOrTrailers_nil]
      exact .trailers (framesBytes_eq_nil.1 hm) rfl
    · rw [dataOrTrailers_of_ne_nil _ _ hm]
      exact .allMessages rfl
  | cons b m =>
    have hf : eof = false := by
      cases eof with
      | false => rfl
      | true => cases he rfl
    rw [hf, trailersFound_cut hh (by simp only [length_cons] at hp; omega), Bool.false_and, if_neg Bool.false_ne_true]
    by_cases hm : framesBytes fs = []
    · rw [hm, dataOrTrailers_nil, nil_append]
      refine .again ?_
      rw [hm]
      exact hl
    · rw [dataOrTrailers_of_ne_nil _ _ hm]
      exact .messages (append_nil fs).symm (fun hn => hm (framesBytes_eq_nil.2 hn)) hl

theorem scan_read (hm : Messages fs) (ht : tf.flag = trailersBit)
    (hdc : decodeTrailersFrame tf.bytes = .ok (some trailers))
    (hl : decoded ++ more = framesBytes fs ++ tf.bytes) (he : eof = true → more = []) :
    Read fs tf trailers decoded more (Held.scan { decoded := decoded, trailers := none } eof) := by
  have hs := findTrailers_scanned decoded
  unfold Held.scan
  generalize findTrailers decoded = fn at hs
  cases hs with
  | @done done r hd hsh =>
    rw [append_assoc] at hl
    obtain ⟨t, rfl, htd⟩ := exists_todo hd ht hl
    dsimp only
    split
    · rename_i hz
      have hfl : eof = false := by
        cases eof with
        | false => rfl
        | true =>
          rw [he rfl, append_nil] at htd
          have := tf.length_bytes
          rw [htd, length_append] at hsh
          omega
      rw [hfl]
      refine .again ?_
      rw [append_assoc]
      exact hl
    · rename_i hps
      rw [take_left, drop_left]
      refine .messages rfl ?_ htd
      rintro rfl
      exact hps rfl
  | @trailer done r p len hd hh =>
    rw [append_assoc] at hl
    obtain ⟨t, rfl, htd⟩ := exists_todo hd ht hl
    rw [messages_append] at hm
    rcases header_of_sent hh htd with ⟨rfl, -, hp, hln⟩ | ⟨f, hfr, hf, -⟩
    · rw [append_nil] at hl
      simp only [take_left, drop_left, append_nil]
      exact trailersFound_read hdc htd hh hp hln he
    · have := hm.2 f hfr
      rw [← hf] at this
      exact absurd this (by decide)
  | @incomplete done r p flag len hd hh hf hsh =>
    rw [append_assoc] at hl
    obtain ⟨t, rfl, htd⟩ := exists_todo hd ht hl
    cases eof with
    | true =>
      have hmr : more = [] := he rfl
      rcases header_of_sent hh htd with ⟨-, htr, -, -⟩ | ⟨f, -, -, hln⟩
      · rw [htr, ht] at hf
        exact absurd hf (by decide)
      · rw [hmr, append_nil] at hln
        omega
    | false =>
      refine .again ?_
      rw [append_assoc]
      exact hl
  | @invalid done r p flag len hd hh hn hn' =>
    rw [append_assoc] at hl
    obtain ⟨t, rfl, htd⟩ := exists_todo hd ht hl
    rw [messages_append] at hm
    rcases header_of_sent hh htd with ⟨-, htr, -, -⟩ | ⟨f, hfr, hf, -⟩
    · exact absurd (htr.trans ht) hn
    · rw [hf, hm.2 f hfr] at hn'
      cases hn'

end

/-! ## Whole responses -/

namespace Call

theorem poll_pending {decoded : Bytes} {r : List Polled} :
    (clientState { decoded := decoded, trailers := none } (.pending :: r)).poll =
      (.pending, clientState { decoded := decoded, trailers := none } r) := by
  rw [poll_clientState (.inr rfl)]
  rfl

theorem poll_data (decoded bs : Bytes) (r : List Polled) :
    (clientState { decoded := decoded, trailers := none } (.frame (.data bs) :: r)).poll =
      match Held.scan { decoded := decoded ++ bs, trailers := none } false with
      | (some polled, h) => (polled, clientState h r)
      | (none, h) => ((h.pollLoop r).1, clientState (h.pollLoop r).2.1 (h.pollLoop r).2.2) := by
  rw [poll_clientState (.inr rfl)]
  simp only [pollLoop, Polled.poll, passed, Held.turn]
  rcases Held.scan { decoded := decoded ++ bs, trailers := none } false with ⟨_ | polled, h⟩ <;> rfl

theorem poll_end (decoded : Bytes) : (clientState { decoded := decoded, trailers := none } []).poll =
      (((Held.scan { decoded := decoded, trailers := none } true).1).getD .ended,
        clientState (Held.scan { decoded := decoded, trailers := none } true).2 []) := by
  rw [poll_clientState (.inr rfl)]
  simp only [pollLoop]
  rcases Held.scan { decoded := decoded, trailers := none } true with ⟨_ | polled, h⟩ <;> rfl

theorem yields_nothing {b : List Polled} (hbd : Chunks b) (hd : dataOf b = []) :
    Yields poll (clientState { decoded := [], trailers := none } b) [] none := by
  induction b with
  | nil => exact (yields_of_ended (poll_end [])).2 ⟨rfl, rfl⟩
  | cons p r ih =>
    obtain ⟨hp, hrest⟩ := List.forall_mem_cons.1 hbd
    rw [dataOf_cons, append_eq_nil_iff] at hd
    have ih := ih hrest hd.2
    match p, hp, hd.1 with
    | .pending, _, _ => exact (yields_of_pending poll_pending).2 ih
    | .frame (.data bs), _, hb =>
      obtain rfl : bs = [] := hb
      refine (Yields.congr ?_).2 ih
      rw [poll_data, poll_clientState (.inr rfl)]
      rfl

theorem yields_stored {b : List Polled} (hb : Chunks b) (hd : dataOf b = []) (trailers : HeaderMap) :
    Yields poll (clientState { decoded := [], trailers := some trailers } b) [.trailers trailers] none :=
  (yields_of_item (poll_stored trailers b)).2 ⟨[], rfl, yields_nothing hb hd⟩

section
variable {tf : Frame} {trailers : HeaderMap} {fs : List Frame} {decoded : Bytes}

/-- The data frames are the bytes of `frames`, however they are grouped; then come the trailers and the end. -/
def YieldsResponse (trailers : HeaderMap) (frames : List Frame) (c : Call (List Polled)) : Prop :=
  ∃ datas : List Bytes, datas.flatten = framesBytes frames ∧
    Yields poll c (datas.map .data ++ [.trailers trailers]) none

theorem yieldsResponse_of_read (hm : Messages fs) {r : List Polled}
    {p : Poll Failure HttpFrame} {h : Held} (hr : Read fs tf trailers decoded (dataOf r) (some p, h))
    {c : Call (List Polled)} (hp : c.poll = (p, clientState h r)) (hrest : Chunks r)
    (ih : ∀ {t : List Frame} {decoded : Bytes}, t.length < fs.length → Messages t →
      decoded ++ dataOf r = framesBytes t ++ tf.bytes →
      YieldsResponse trailers t (clientState { decoded := decoded, trailers := none } r)) :
    YieldsResponse trailers fs c := by
  cases hr with
  | @messages done t r' hs hne hl =>
    subst hs
    have hps := List.length_pos_iff.2 hne
    obtain ⟨ds, hd, hy⟩ := ih (by simp only [length_append]; omega) (messages_append.1 hm).2 hl
    exact ⟨framesBytes done :: ds, by simp [hd], (yields_of_item hp).2 ⟨_, rfl, hy⟩⟩
  | allMessages he =>
    exact ⟨[framesBytes fs], by simp, (yields_of_item hp).2 ⟨_, rfl, yields_stored hrest he trailers⟩⟩
  | trailers hlast he =>
    subst hlast
    exact ⟨[], rfl, (yields_of_item hp).2 ⟨_, rfl, yields_nothing hrest he⟩⟩

theorem yieldsResponse_of_left (ht : tf.flag = trailersBit)
    (hdc : decodeTrailersFrame tf.bytes = .ok (some trailers)) {b : List Polled} (hb : Chunks b)
    (hm : Messages fs) (hl : decoded ++ dataOf b = framesBytes fs ++ tf.bytes) :
    YieldsResponse trailers fs (clientState { decoded := decoded, trailers := none } b) := by
  -- frames may be left in the buffer after the end of the body, so the induction is on both
  induction hn : b.length + fs.length using Nat.strong_induction_on generalizing b fs decoded with
  | _ n ih =>
    subst hn
    cases b with
    | nil =>
      have hr : Read fs tf trailers decoded [] (Held.scan { decoded := decoded, trailers := none } true) :=
        scan_read hm ht hdc hl fun _ => rfl
      have hsm := scan_true { decoded := decoded, trailers := none }
      have hp := poll_end decoded
      rcases hs : Held.scan { decoded := decoded, trailers := none } true with ⟨_ | polled, h⟩
      · rw [hs] at hsm
        cases hsm
      · rw [hs] at hr hp
        exact yieldsResponse_of_read hm hr hp hb
          fun hlt htd hrest => ih _ (by simpa using hlt) hb htd hrest rfl
    | cons polled r =>
      obtain ⟨hpl, hrest⟩ := List.forall_mem_cons.1 hb
      match polled, hpl with
      | .pending, _ =>
        obtain ⟨ds, hd, hy⟩ := ih _ (by simp) hrest hm hl rfl
        exact ⟨ds, hd, (yields_of_pending poll_pending).2 hy⟩
      | .frame (.data bs), _ =>
        have hr : Read fs tf trailers (decoded ++ bs) (dataOf r)
            (Held.scan { decoded := decoded ++ bs, trailers := none } false) :=
          scan_read hm ht hdc ((append_assoc _ _ _).trans hl) nofun
        have hp := poll_data decoded bs r
        rcases hs : Held.scan { decoded := decoded ++ bs, trailers := none } false with ⟨_ | polled, h⟩
        · rw [hs] at hr hp
          cases hr with
          | again ha =>
            obtain ⟨ds, hd, hy⟩ := ih _ (by simp) hrest hm ha rfl
            refine ⟨ds, hd, (Yields.congr ?_).2 hy⟩
            rw [hp, poll_clientState (.inr rfl)]
        · rw [hs] at hr hp
          exact yieldsResponse_of_read hm hr hp hrest
            fun hlt htd hrs' => ih _ (by simp only [length_cons]; omega) hrest htd hrs' rfl

end

end Call

/-- However cut, the messages, the trailers and the end are read, exactly if a trailers frame keeps the trailers. -/
theorem response_read_in_any_chunks {frames : List Frame} (hm : Messages frames) {trailers : HeaderMap}
    (hvalid : trailers.Valid) {bytes : Bytes} (hbytes : makeTrailersFrame trailers = .ok bytes) {body : List Polled}
    (hbody : Chunks body) (hdata : dataOf body = framesBytes frames ++ bytes) :
    (∃ ds : List Bytes, ds.flatten = framesBytes frames ∧
      Yields Call.poll (.clientResponse body) (ds.map .data ++ [.trailers trailers]) none) ↔ Kept trailers := by
  obtain ⟨t, hf, _, rfl⟩ := makeTrailersFrame_ok hbytes
  constructor
  · rintro ⟨ds, -, hy⟩
    -- Some trailers are read in any case, and the polls have one result.
    have hread := decodeTrailersFrame_eq hvalid hbytes
    obtain ⟨ds', -, hy'⟩ : Call.YieldsResponse _ frames (.clientResponse body) :=
      Call.yieldsResponse_of_left hf hread hbody hm hdata
    have hlast := congrArg List.getLast? (hy.unique hy').1
    rw [getLast?_concat, getLast?_concat, Option.some.injEq, HttpFrame.trailers.injEq] at hlast
    rw [← hlast] at hread
    exact kept_of_decodeTrailersFrame hvalid hbytes hread
  · intro hkept
    exact Call.yieldsResponse_of_left hf (decodeTrailersFrame_makeTrailersFrame hkept hbytes) hbody hm hdata

/-- Cut inside both headers. -/
theorem response_read_in_any_chunks_cut :
    let fr : Frame := { flag := 1, payload := [7], short := by decide }
    let trailers : HeaderMap := { entries := [(utf8 "a", utf8 "b ")] }
    let body : List Polled :=
      [.frame (.data [1, 0]), .pending, .frame (.data [0, 0, 1, 7, 0x80, 0, 0]),
        .frame (.data ([0, 6] ++ utf8 "a:b \r\n"))]
    makeTrailersFrame trailers = .ok ([0x80, 0, 0, 0, 6] ++ utf8 "a:b \r\n") ∧
      ∃ ds : List Bytes, ds.flatten = framesBytes [fr] ∧
        Yields Call.poll (.clientResponse body) (ds.map .data ++ [.trailers trailers]) none := by
  intro fr trailers body
  have hb : makeTrailersFrame trailers = .ok ([0x80, 0, 0, 0, 6] ++ utf8 "a:b \r\n") := by decide
  have hk : Kept trailers := by
    refine ⟨?_, ?_, ?_⟩
    · intro e he
      obtain rfl := List.mem_singleton.1 he
      decide
    · exact nodup_singleton _
    · intro e he
      obtain rfl := List.mem_singleton.1 he
      show trimAsciiStart _ = _
      decide
  have hbd : Chunks body := by simp [Chunks, body, Polled.IsChunk]
  have hm : Messages [fr] := by
    intro f hf
    obtain rfl := List.mem_singleton.1 hf
    rfl
  exact ⟨hb, (response_read_in_any_chunks hm hk.valid hb hbd (by decide)).2 hk⟩

/-- Of two values of a name the first is lost, and a value loses the space it begins with. -/
theorem trailers_changed :
    let two : HeaderMap := { entries := [(utf8 "a", utf8 "1"), (utf8 "a", utf8 "2")] }
    let spaced : HeaderMap := { entries := [(utf8 "a", utf8 " 2")] }
    let l : HeaderMap := { entries := [(utf8 "a", utf8 "2")] }
    let b (bs : Bytes) : List Polled := [.frame (.data bs)]
    let ts : Bytes := [0x80, 0, 0, 0, 10] ++ utf8 "a:1\r\na:2\r\n"
    let ss : Bytes := [0x80, 0, 0, 0, 6] ++ utf8 "a: 2\r\n"
    (two.Valid ∧ makeTrailersFrame two = .ok ts ∧
        Yields Call.poll (.clientResponse (b ts)) [.trailers l] none ∧ l ≠ two) ∧
      spaced.Valid ∧ makeTrailersFrame spaced = .ok ss ∧
        Yields Call.poll (.clientResponse (b ss)) [.trailers l] none ∧ l ≠ spaced := by
  refine ⟨⟨?_, by decide, ⟨3, by decide⟩, by decide⟩, ?_, by decide, ⟨3, by decide⟩, by decide⟩
  · unfold HeaderMap.Valid
    decide
  · unfold HeaderMap.Valid
    decide

end TonicWeb
