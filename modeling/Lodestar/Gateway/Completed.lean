import Lodestar.Gateway.Accounting
import Lodestar.Gateway.Calls

/-!
# When a response body completes a request

`HandleResponseBody` returns whether the request is complete.  The flag is handed
through its parts: the decoding of a streamed chunk starts it again from `false`, and
every other part can only set it.  So a call that finds no timing record keeps a request
complete, the end of a stream completes it on every path, and a streamed chunk completes
it again exactly by a usage, by the end of the stream or by an error.

The timing record, in turn, is given up at the end of a stream that is handled to its
end, and when a streamed chunk cannot be decoded.
-/

namespace Lodestar.Gateway

open Lib

namespace ResponseCall

variable (c : ResponseCall)

/-- The parts of `HandleResponseBody` behind the first one. -/
def tail (f : Frame) : Flow :=
  (((c.finish f).andThen c.report).andThen c.decodeAgain).andThen c.close

lemma body_eq (f : Frame) : c.body f = (c.decode f).andThen c.tail := by
  unfold body tail
  cases c.decode f <;> rfl

variable {c} {f g : Frame}

/-! ### The later parts -/

variable (c) in
/-- A timing record that is gone in `g` was so in `f`, or the chunk may end the response. -/
def Ends (f g : Frame) : Prop := g.entries.timing = none → f.entries.timing = none ∨
  c.msg.endOfStream = true ∨ c.stream = true ∧ (c.server.events c.msg.body).2.isSome = true

lemma Ends.andThen {F : Flow} {k : Frame → Flow} (h : c.Ends f F.frame)
    (hk : ∀ g, c.Ends g (k g).frame) : c.Ends f (F.andThen k).frame := by
  cases F with
  | next g => exact fun ht => (hk g ht).elim h .inr
  | reply | blocked => exact h

lemma Ends.of_eq (h : g.entries.timing = f.entries.timing) : c.Ends f g := fun ht => .inl (h ▸ ht)

lemma ends_tail (f : Frame) : c.Ends f (c.tail f).frame := by
  refine ((Ends.andThen (fun ht => ((finish_spec f fun _ => True).2 ht).imp id .inl) fun g =>
    .of_eq (by rw [(report_spec g).2.1])).andThen fun g => ?_).andThen fun g =>
      .of_eq (by rw [(close_spec g fun _ => True).2.1])
  rcases (decodeAgain_spec g).2 with ⟨-, ht, -⟩ | ⟨timing, -, -, hs, herr, -⟩
  · exact .of_eq ht
  · exact fun _ => .inr (.inr ⟨hs, herr⟩)

lemma replies_tail (h : f.complete = true ∨ c.msg.endOfStream = true ∨ c.stream = true ∧
    ((c.server.events c.msg.body).2.isSome = true ∨ 0 < f.usage.totalTokens ∨
      (usageOfEvents f.usage (c.server.events c.msg.body).1).totalTokens ≠ 0)) :
    (c.tail f).Leads (fun _ => False) (·.complete = true) (c.ctx.targetPod = none) := by
  have hreport : ((c.finish f).andThen c.report).Leads (fun g => g.usage = f.usage ∧
      g.complete = (f.complete || decide (0 < f.usage.totalTokens))) (·.complete = true)
      (c.ctx.targetPod = none) := by
    refine (finish_spec f _).1.andThen fun g hg => ?_
    rw [← hg.1, ← hg.2]
    exact (report_spec g).1.imp (fun _ h => ⟨h.2.1, h.2.2.1⟩) (fun _ h => h.2.1) id
  refine (hreport.andThen fun g hg => ?_).andThen (N := fun g => g.complete = true ∨
    c.msg.endOfStream = true ∨ g.usage.totalTokens ≠ 0) fun g hg => ?_
  · refine (decodeAgain_spec g).1.imp (fun g' hg' => ?_) (fun g' hg' => ?_) id
    · rcases h with h | h | ⟨hs, h⟩
      · exact .inl (hg'.1.trans (by simp [hg.2, h]))
      · exact .inr (.inl h)
      · obtain ⟨herr, husage⟩ := hg'.2 hs
        rw [hg.1] at husage
        rcases h with h | h | h
        · simp [herr] at h
        · exact .inl (hg'.1.trans (by simp [hg.2, h]))
        · exact .inr (.inr (husage ▸ h))
    · rcases hg' with hg' | ⟨hg', hs, hend⟩
      · exact hg'
      · have hf : f.complete = true := h.resolve_right fun h => by simp [hs, hend] at h
        exact hg'.trans (by simp [hg.2, hf])
  · refine (close_spec g _).1.imp (fun _ h => h) (fun g' hg' => hg'.1.trans ?_) id
    rcases hg with hg | hg | hg <;> simp [hg]

variable {e : Entries} {timing : RequestTiming}

lemma decodeStreamed_spec (ht : f.entries.timing = some timing) :
    (c.decodeStreamed f).Leads (fun g => g.usage = c.firstUsage f.entries) (·.complete = true)
        (∃ ctx, f.entries.routingContext = some ctx ∧ ctx.targetPod = none) ∧
      ((c.decodeStreamed f).frame.entries.timing = none →
        (c.server.events c.msg.body).2.isSome = true) := by
  have hF := c.streamed ht
  generalize c.decodeStreamed f = F at hF ⊢
  cases hF with
  | unlinked _ h hu => exact ⟨hu, fun hnone => by simp [Flow.frame, h.timing] at hnone⟩
  | blocked hctx hp h => exact ⟨⟨_, hctx, hp⟩, fun hnone => by simp [Flow.frame, h.timing] at hnone⟩
  | counted _ _ _ h hu => exact ⟨hu, fun hnone => by simp [Flow.frame, h.timing] at hnone⟩
  | broken _ _ herr hcomp => exact ⟨hcomp, fun _ => herr⟩

lemma decodeBuffered_spec (timing : RequestTiming) : (c.decodeBuffered timing f).Leads
    (fun g => g.complete = f.complete ∧ c.msg.endOfStream = true ∧
      ∃ res, c.server.completion (f.entries.requestBuffer.getD "" ++ c.msg.body) = .ok res ∧
        res.model ≠ "")
    (fun g => c.msg.endOfStream = false ∧ g.complete = f.complete ∨ g.complete = true) False := by
  unfold decodeBuffered
  dsimp only
  split
  · exact .inl ⟨‹_›, rfl⟩
  · split
    · exact .inr rfl
    · split
      · exact .inr rfl
      · exact ⟨rfl, by simpa using ‹¬ c.msg.endOfStream = false›, _, ‹_›, ‹_›⟩

/-! ### The flag that is returned -/

variable {hasCompleted completed : Bool} {resp : ProcessingResponse}

lemma handle_returned (h : (c.handle hasCompleted e).outcome = .returned (resp, completed)) :
    ∃ g, c.body { entries := e, complete := hasCompleted } = .reply g resp ∧
      g.complete = completed := by
  unfold handle at h
  split at h
  · rename_i f resp' heq
    obtain ⟨rfl, rfl⟩ := h
    exact ⟨f, heq, rfl⟩
  · simp at h
  · simp at h

lemma complete_of_leads (hg : c.body f = .reply g resp) {N : Frame → Prop}
    (h : (c.decode f).Leads N (·.complete = true) True) (htail : ∀ g, N g →
      (c.tail g).Leads (fun _ => False) (·.complete = true) (c.ctx.targetPod = none)) :
    g.complete = true := by
  rw [body_eq] at hg
  have := h.andThen fun g hg => (htail g hg).imp (fun _ h => h) (fun _ h => h) fun _ => trivial
  rwa [hg] at this

lemma completed_of_completed {completed : Bool}
    (h : (c.handle true e).outcome = .returned (resp, completed))
    (hc : e.timing = none ∨ c.stream = false) : completed = true := by
  obtain ⟨g, hg, rfl⟩ := handle_returned h
  refine complete_of_leads hg ?_ fun _ h => replies_tail (.inl h)
  unfold decode
  split
  · rfl
  · rename_i timing ht
    have hs : c.stream = false := hc.resolve_left fun h0 => by simp [h0] at ht
    rw [if_neg (by simp [hs])]
    exact (decodeBuffered_spec timing).imp (fun _ h => h.1) (fun _ h => h.elim And.right id)
      fun _ => trivial

lemma completed_of_endOfStream
    (h : (c.handle hasCompleted e).outcome = .returned (resp, completed))
    (hend : c.msg.endOfStream = true) : completed = true := by
  obtain ⟨g, hg, rfl⟩ := handle_returned h
  refine complete_of_leads hg (N := fun _ => True) ?_ fun _ _ => replies_tail (.inr (.inl hend))
  unfold decode
  split
  · trivial
  · rename_i timing ht
    split
    · exact (decodeStreamed_spec ht).1.imp (fun _ _ => trivial) (fun _ h => h) fun _ => trivial
    · refine (decodeBuffered_spec timing).imp (fun _ _ => trivial) (fun _ h => ?_) fun _ => trivial
      exact h.resolve_left fun hno => by simp [hend] at hno

lemma completed_of_streamed (h : (c.handle hasCompleted e).outcome = .returned (resp, completed))
    (hs : c.stream = true) (ht : e.timing = some timing)
    (hc : (c.server.events c.msg.body).2.isSome = true ∨ 0 < (c.firstUsage e).totalTokens ∨
      (usageOfEvents (c.firstUsage e) (c.server.events c.msg.body).1).totalTokens ≠ 0) :
    completed = true := by
  obtain ⟨g, hg, rfl⟩ := handle_returned h
  refine complete_of_leads hg (N := fun g => g.usage = c.firstUsage e) ?_ fun g hg => ?_
  · simp only [decode, ht, hs]
    exact (decodeStreamed_spec ht).1.imp (fun _ h => h) (fun _ h => h) fun _ => trivial
  · exact replies_tail (.inr (.inr ⟨hs, hg ▸ hc⟩))

/-! ### The timing record -/

/-- A chunk at which a request with a timing record gives it up: the end of a stream that
is handled to its end, or a streamed chunk that cannot be decoded. -/
def finishes (c : ResponseCall) (e : Entries) : Bool :=
  if c.stream then c.msg.endOfStream || (c.server.events c.msg.body).2.isSome
  else c.msg.endOfStream &&
    match c.server.completion (e.requestBuffer.getD "" ++ c.msg.body) with
    | .ok res => res.model ≠ ""
    | .error _ => false

/-- **The timing record** is given up only where the chunk `finishes` the request. -/
lemma finishes_of_timing {hasCompleted : Bool} (ht : e.timing = some timing)
    (h : (c.handle hasCompleted e).entries.timing = none) :
    c.finishes e = true := by
  have hbody : (c.body { entries := e, complete := hasCompleted }).frame.entries.timing = none := by
    unfold handle at h
    split at h <;> simp_all [Flow.frame]
  rw [body_eq, decode] at hbody
  simp only [ht] at hbody
  unfold finishes
  split at hbody
  · rename_i hs
    rw [if_pos hs, Bool.or_eq_true]
    have hgone := (decodeStreamed_spec (c := c)
      (f := { entries := e, complete := hasCompleted }) ht).2
    cases hd : c.decodeStreamed { entries := e, complete := hasCompleted } with
    | next g =>
      rw [hd] at hbody hgone
      rcases ends_tail g hbody with hg | hend | herr
      · exact .inr (hgone hg)
      · exact .inl hend
      · exact .inr herr.2
    | reply | blocked =>
      rw [hd] at hbody hgone
      exact .inr (hgone hbody)
  · rename_i hs
    rw [if_neg hs]
    -- the first decoding keeps the record, so it has gone on to the end
    have hkept := (Accounting.frame_decodeBuffered (c := c) timing
      { entries := e, complete := hasCompleted }).1
    have hleads := decodeBuffered_spec (c := c) (f := { entries := e, complete := hasCompleted }) timing
    cases hd : c.decodeBuffered timing { entries := e, complete := hasCompleted } with
    | next g =>
      rw [hd] at hleads
      obtain ⟨-, hend, res, hres, hmodel⟩ := hleads
      simp only [hend]
      rw [hres]
      simpa using hmodel
    | reply | blocked =>
      rw [hd] at hbody hkept
      simp [Flow.andThen, hkept] at hbody

lemma completed_of_timing_none
    (h : (c.handle hasCompleted e).outcome = .returned (resp, completed))
    (hbefore : e.timing = none → hasCompleted = true)
    (hafter : (c.handle hasCompleted e).entries.timing = none) : completed = true := by
  cases ht : e.timing with
  | none =>
    obtain rfl := hbefore ht
    exact completed_of_completed h (.inl ht)
  | some timing =>
    have hfin := finishes_of_timing ht hafter
    unfold finishes at hfin
    split at hfin
    · rename_i hs
      rcases (Bool.or_eq_true _ _).mp hfin with hend | herr
      · exact completed_of_endOfStream h hend
      · exact completed_of_streamed h hs ht (.inl herr)
    · exact completed_of_endOfStream h ((Bool.and_eq_true _ _).mp hfin).1

end ResponseCall
end Lodestar.Gateway
