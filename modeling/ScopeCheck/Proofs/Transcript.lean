import ScopeCheck.Proofs.Deliveries
import ScopeCheck.Sink.Text

/-!
# Transcripts

The transcript of a history is the text that an unlimited buffer would hold after it.  A limited
buffer holds the front of the transcript: once a block has been cut, the buffer is full, and no
block is empty, so nothing can slip in behind the cut.

* `Event.entry`: the text of an event in a transcript.
* `Sink.deliver_text`: one delivery to the text sink.  It appends the entry as far as there is room,
  and drops the event exactly when there is not enough.
* `Delivered.text_last`, `Delivered.text_dropped`: deliveries in turn.
* `History.text_is_cut_transcript`: the text that a whole history leaves, and its warnings.
-/

namespace ScopeCheck

variable {S : Type}

/-! ## Entries -/

namespace Event

/-- The text of an event in a transcript: its block, or, for an event that has none, the block of
the event that replaces it. -/
def entry (event : Event) : String :=
  match event.block with
  | .ok block => block
  | .error error => (replacement event error).block.toOption.getD ""

/-- The bytes of an entry. -/
def entryBytes (event : Event) : List UInt8 :=
  Text.bytes event.entry.toList

theorem entry_of_block {event : Event} {block : String} (h : event.block = .ok block) :
    event.entry = block := by
  rw [entry, h]

/-- A replacement always has a block. -/
theorem block_replacement {event : Event} {error : SinkError} (h : event.block = .error error) :
    (replacement event error).block = .ok event.entry := by
  rw [entry, h]
  rfl

/-- No block is empty. -/
theorem block_ne_empty {event : Event} {block : String} (h : event.block = .ok block) :
    block.toList ≠ [] := by
  cases event with
  | tokenFailed report =>
    rw [Event.block] at h
    split at h
    · cases h
    · rw [← Except.ok.inj h]
      simp
  | tokenPassed report =>
    rw [Event.block] at h
    split at h
    · cases h
    · rw [← Except.ok.inj h]
      simp
  | _ =>
    rw [Event.block] at h
    rw [← Except.ok.inj h]
    simp

theorem entryBytes_length_pos (event : Event) : 0 < event.entryBytes.length := by
  have hentry : event.entry.toList ≠ [] := by
    cases hblock : event.block with
    | ok block =>
      rw [entry_of_block hblock]
      exact block_ne_empty hblock
    | error error => exact block_ne_empty (block_replacement hblock)
  obtain ⟨c, cs, hcs⟩ := List.exists_cons_of_ne_nil hentry
  have hsize := c.utf8Size_pos
  rw [entryBytes, hcs, Text.bytes, List.flatMap_cons, List.length_append,
    String.length_utf8EncodeChar]
  omega

end Event

/-! ## One delivery to a limited buffer -/

section Deliver

variable {n : Nat} (failure : String) {written : List UInt8} {event : Event}

/-- A block that fits is appended and accepted; of any other block the front is kept. -/
theorem Sink.text_report_of_block {block : String} (h : event.block = .ok block)
    (hwritten : written.length ≤ n) :
    (Sink.text ⟨some n, failure⟩).report written event =
      ⟨(written ++ event.entryBytes).take n,
        if (written ++ event.entryBytes).length ≤ n then .accepted else .refused (.io failure),
        []⟩ := by
  have hbytes : Text.bytes block.toList = event.entryBytes := by
    rw [Event.entryBytes, Event.entry_of_block h]
  simp only [Sink.text, h, Buffer.write, hbytes]
  by_cases hfits : event.entryBytes.length ≤ n - written.length
  · have hroom : (written ++ event.entryBytes).length ≤ n := by
      rw [List.length_append]
      omega
    rw [if_pos hfits, if_pos hroom, List.take_of_length_le hroom]
  · have hroom : ¬ (written ++ event.entryBytes).length ≤ n := by
      rw [List.length_append]
      omega
    rw [if_neg hfits, if_neg hroom, List.take_append, List.take_of_length_le hwritten]

/-- A full buffer takes no block. -/
theorem Sink.text_report_of_full {block : String} (h : event.block = .ok block)
    (hfull : written.length = n) :
    (Sink.text ⟨some n, failure⟩).report written event = ⟨written, .refused (.io failure), []⟩ := by
  have hpos := event.entryBytes_length_pos
  have hroom : ¬ (written ++ event.entryBytes).length ≤ n := by
    rw [List.length_append]
    omega
  have hkept : (written ++ event.entryBytes).take n = written := by
    rw [← hfull, List.take_left]
  rw [text_report_of_block failure h hfull.le, if_neg hroom, hkept]

/-- Delivering an event appends its entry as far as there is room.  The event is dropped exactly
when the entry does not fit: the buffer is full then, and a replacement finds no room either. -/
theorem Sink.deliver_text (hwritten : written.length ≤ n) (event : Event) :
    let delivery := (Sink.text ⟨some n, failure⟩).deliver written event
    delivery.state = (written ++ event.entryBytes).take n ∧
      (delivery.fate = .dropped ↔ n < (written ++ event.entryBytes).length) := by
  cases hblock : event.block with
  | ok block =>
    have hfirst := text_report_of_block failure hblock hwritten
    by_cases hroom : (written ++ event.entryBytes).length ≤ n
    · rw [if_pos hroom] at hfirst
      rw [deliver_of_accepted (by rw [hfirst]), hfirst]
      exact ⟨rfl, by simp, fun hcut => absurd hroom (Nat.not_le.mpr hcut)⟩
    · rw [if_neg hroom] at hfirst
      -- what was kept of the block fills the buffer
      have hfull : ((written ++ event.entryBytes).take n).length = n := by
        rw [List.length_take]
        omega
      have hreplaced : (replacement event (.io failure)).block = .ok _ := rfl
      have hsecond := text_report_of_full failure hreplaced hfull
      rw [deliver_of_dropped (by rw [hfirst]) (by rw [hfirst, hsecond]), hfirst,
        hsecond]
      exact ⟨rfl, fun _ => Nat.not_le.mp hroom, fun _ => rfl⟩
  | error error =>
    have hfirst : (Sink.text ⟨some n, failure⟩).report written event = _ :=
      text_report_of_no_block hblock
    have hreplaced := Event.block_replacement hblock
    have hbytes : (replacement event error).entryBytes = event.entryBytes := by
      rw [Event.entryBytes, Event.entry_of_block hreplaced, Event.entryBytes]
    have hsecond := text_report_of_block failure hreplaced hwritten
    rw [hbytes] at hsecond
    by_cases hroom : (written ++ event.entryBytes).length ≤ n
    · rw [if_pos hroom] at hsecond
      rw [deliver_of_replaced (by rw [hfirst]) (by rw [hfirst, hsecond]), hfirst, hsecond]
      exact ⟨rfl, by simp, fun hcut => absurd hroom (Nat.not_le.mpr hcut)⟩
    · rw [if_neg hroom] at hsecond
      rw [deliver_of_dropped (by rw [hfirst]) (by rw [hfirst, hsecond]), hfirst, hsecond]
      exact ⟨rfl, fun _ => Nat.not_le.mp hroom, fun _ => rfl⟩

end Deliver

/-! ## Deliveries in turn -/

/-- The bytes of a transcript: the entries of events, one after the other. -/
def transcript (events : List Event) : List UInt8 :=
  events.flatMap Event.entryBytes

namespace Delivered

variable {n : Nat} {failure : String} {written last : List UInt8} {handed : List Handed}
  {log : List Log.Record}

/-- After deliveries in turn, the buffer holds what there was room for.  Cutting at every entry or
once at the end is the same. -/
theorem text_last (h : Delivered (Sink.text ⟨some n, failure⟩) written handed log last)
    (hwritten : written.length ≤ n) :
    last = (written ++ transcript (handed.map Handed.event)).take n := by
  induction h with
  | nil =>
    rw [List.map_nil, transcript, List.flatMap_nil, List.append_nil,
      List.take_of_length_le hwritten]
  | quiet _ _ ih => exact ih hwritten
  | @deliver written last handed log event stats _ ih =>
    obtain ⟨hstate, -⟩ := Sink.deliver_text failure hwritten event
    rw [hstate] at ih
    have hrest := ih (List.length_take_le n _)
    have hcut : ∀ front rest : List UInt8,
        (front.take n ++ rest).take n = (front ++ rest).take n := by
      intro front rest
      rw [List.take_append, List.take_append, List.take_take, Nat.min_self, List.length_take]
      have hroom : n - min n front.length = n - front.length := by omega
      rw [hroom]
    rw [hrest, hcut, List.append_assoc]
    rfl

/-- All events are dropped from the first on that finds the buffer full. -/
theorem text_dropped_of_full (h : Delivered (Sink.text ⟨some n, failure⟩) written handed log last)
    (hfull : written.length = n) :
    handed.countP Handed.isDropped = handed.length := by
  induction h with
  | nil => rfl
  | quiet _ _ ih => exact ih hfull
  | @deliver written last handed log event stats _ ih =>
    obtain ⟨hstate, hdropped⟩ := Sink.deliver_text failure hfull.le event
    have hpos := event.entryBytes_length_pos
    have hcut : n < (written ++ event.entryBytes).length := by
      rw [List.length_append]
      omega
    have hfate := (Delivery.isDropped_handed _ event stats).mpr (hdropped.mpr hcut)
    rw [hstate] at ih
    have hrest := ih (by rw [List.length_take]; omega)
    rw [List.countP_cons_of_pos hfate, hrest, List.length_cons]

/-- The events that are dropped are those from some `k` on, the first whose entry does not fit. -/
theorem text_dropped (h : Delivered (Sink.text ⟨some n, failure⟩) written handed log last)
    (hwritten : written.length ≤ n) :
    let events := handed.map Handed.event
    ∃ k ≤ events.length, (written ++ transcript (events.take k)).length ≤ n ∧
      (k < events.length → n < (written ++ transcript (events.take (k + 1))).length) ∧
      handed.countP Handed.isDropped = events.length - k := by
  induction h with
  | nil => exact ⟨0, le_refl 0, by simpa [transcript] using hwritten, by simp, rfl⟩
  | quiet _ _ ih => exact ih hwritten
  | @deliver written last handed log event stats hrest ih =>
    obtain ⟨hstate, hdropped⟩ := Sink.deliver_text failure hwritten event
    intro events
    have hsplit : ∀ k, written ++ transcript (events.take (k + 1)) =
        (written ++ event.entryBytes) ++ transcript ((handed.map Handed.event).take k) := by
      intro k
      rw [List.append_assoc]
      rfl
    have hlength : events.length = (handed.map Handed.event).length + 1 := rfl
    by_cases hroom : (written ++ event.entryBytes).length ≤ n
    · rw [hstate, List.take_of_length_le hroom] at ih
      obtain ⟨k, hk, hfits, hcut, hcount⟩ := ih hroom
      have hkept := mt (hdropped.mp ∘ (Delivery.isDropped_handed _ event stats).mp)
        (Nat.not_lt.mpr hroom)
      refine ⟨k + 1, by omega, ?_, fun hlt => ?_, ?_⟩
      · rw [hsplit]
        exact hfits
      · rw [hsplit]
        exact hcut (by omega)
      · rw [List.countP_cons_of_neg hkept, hcount]
        omega
    · -- this entry is the first that does not fit, and it fills the buffer
      have hcut : n < (written ++ event.entryBytes).length := Nat.not_le.mp hroom
      have hfull : ((written ++ event.entryBytes).take n).length = n := by
        rw [List.length_take]
        omega
      have hfate := (Delivery.isDropped_handed _ event stats).mpr (hdropped.mpr hcut)
      rw [hstate] at hrest
      have hall := hrest.text_dropped_of_full hfull
      refine ⟨0, Nat.zero_le _, ?_, fun _ => ?_, ?_⟩
      · rw [List.take_zero, transcript, List.flatMap_nil, List.append_nil]
        exact hwritten
      · rw [hsplit, List.take_zero, transcript, List.flatMap_nil, List.append_nil]
        exact hcut
      · rw [List.countP_cons_of_pos hfate, hall, hlength, List.length_map]
        rfl

end Delivered

namespace Sink

variable {n : Nat} {failure : String}

theorem neverPanics_text (buffer : Buffer) : (Sink.text buffer).NeverPanics := by
  intro written event h
  simp only [Sink.text] at h
  split at h
  · cases h
  · split at h <;> cases h

/-- The text sink logs nothing. -/
theorem calls_text_log (buffer : Buffer) (written : List UInt8) (reports : List Event) :
    ((Sink.text buffer).calls written reports).flatMap Call.log = [] := by
  induction reports generalizing written with
  | nil => rfl
  | cons report reports ih =>
    have hquiet : ((Sink.text buffer).report written report).log = [] := by
      simp only [Sink.text]
      split
      · rfl
      · split <;> rfl
    rw [calls, List.flatMap_cons, ih, List.append_nil]
    exact hquiet

end Sink

/-! ## Whole histories -/

namespace History

/-- Whatever the room, the buffer holds the front of the transcript after a history, cut where the
room ends.  There is a warning for each event from the first on whose entry does not fit. -/
theorem text_is_cut_transcript (setup : Setup S) (options : Options) (n : Nat) (failure : String)
    (cases : List Case) (finished : Bool) :
    let course := (of setup options (.text ⟨some n, failure⟩) [] cases).course finished
    let events := course.events
    course.last = (transcript events).take (min n (transcript events).length) ∧
      ∃ k ≤ events.length, (transcript (events.take k)).length ≤ n ∧
        (k < events.length → n < (transcript (events.take (k + 1))).length) ∧
        course.log.countP Log.Record.warnsOfDrop = events.length - k := by
  intro course events
  have hdelivered : Delivered (.text ⟨some n, failure⟩) [] course.handed course.log course.last :=
    course_delivered setup options (.text ⟨some n, failure⟩) [] cases finished
  obtain ⟨k, hk, hfits, hcut, hcount⟩ := hdelivered.text_dropped (Nat.zero_le n)
  refine ⟨?_, k, hk, hfits, hcut, ?_⟩
  · rw [hdelivered.text_last (Nat.zero_le n), List.nil_append, ← List.take_eq_take_min]
    rfl
  · rw [hdelivered.warnings (Sink.neverPanics_text _), Sink.calls_text_log, hcount]
    rfl

end History

end ScopeCheck
