import PromptDesk.Proofs.Json.Lossless
import PromptDesk.Slot.Phase
import PromptDesk.Request.Outcome
import PromptDesk.Gate.Tally
import PromptDesk.Directive
import PromptDesk.Settings.Basic
import PromptDesk.Proofs.Board.Replay

/-! Every published record is encoded without loss. A field that is left out is read as the value
for which it is left out, an alternative is told by its name, and an entry of a log keeps what it
tells apart from its own members. -/
namespace PromptDesk

open Json

@[simp] theorem ofTree?_text (s : String) : ofTree? (Tree.text (some s)) = some s := rfl

@[simp] theorem ofTree?_bool (b : Bool) : ofTree? (Tree.bool b) = some b := rfl

@[simp] theorem ofTree?_some_text (s : String) : ofTree? (Tree.text (some s)) = some (some s) := rfl

theorem lossless_optionalText (o : Option String) : Lossless o :=
  lossless_option rfl fun s _ => lossless_string s

theorem lossless_axes (x : Axes) : Lossless x := lossless_keyed fun e _ => lossless_texts e.2

namespace PhaseState

theorem lossless (s : PhaseState) : Lossless s := by
  obtain ⟨phase, requestId, cancelRequested, lastError⟩ := s
  obtain ⟨t, hg, ht⟩ := lossless_named (fun p : Phase => by cases p <;> rfl) phase
  have hphase : GivesEach [("phase", toJson phase)] [t] := .cons hg .nil
  have hid : GivesEach (requestId.toList.map fun id => ("request_id", .text id))
      (requestId.toList.map fun id => .text (some id)) := by
    cases requestId with
    | none => exact .nil
    | some id => exact .cons (gives_text id) .nil
  have hcancel : GivesEach [("cancel_requested", .bool cancelRequested)]
      [.bool cancelRequested] := .cons (gives_bool cancelRequested) .nil
  have hfault : GivesEach
      (if lastError.isEmpty then [] else [("last_error", .text lastError)])
      (if lastError.isEmpty then [] else [.text (some lastError)]) := by
    split
    · exact .nil
    · exact .cons (gives_text lastError) .nil
  refine lossless_record (fun _ => rfl) (by cases requestId <;> rfl)
    (((hphase.append hid).append hcancel).append hfault) ?_ ?_ ?_
  -- a field left out is read as nothing, and so is a fault without a text
  all_goals cases requestId <;> by_cases he : lastError = ""
  all_goals simp [he, fieldsOf, Record.required?, Record.withDefault?, Keyed.lookup_entry, ht]

end PhaseState

/-! ### Messages -/

namespace Part

theorem lossless : (p : Part) → Lossless p
  | .text s => by
    refine ⟨.object [(some "type", .text (some "text")), (some "text", .text (some s))], ?_, rfl⟩
    exact gives_object (.cons ⟨rfl, gives_text _⟩ (.cons ⟨rfl, gives_text s⟩ .nil))
  | .image i => by
    refine ⟨.object [(some "type", .text (some "image")), (some "data", .text (some i.data)),
      (some "mime_type", .text (some i.mimeType))], ?_, rfl⟩
    exact gives_object (.cons ⟨rfl, gives_text _⟩ (.cons ⟨rfl, gives_text i.data⟩
      (.cons ⟨rfl, gives_text i.mimeType⟩ .nil)))

end Part

namespace Message

theorem lossless (m : Message) (h : ∀ t ∈ m.at?, Timestamp.parse? t.text = some t) :
    Lossless m := by
  obtain ⟨role, content, at?⟩ := m
  obtain ⟨t, hg, ht⟩ := lossless_named (fun r : Role => by cases r <;> rfl) role
  obtain ⟨u, hgu, hu⟩ := lossless_list fun p (_ : p ∈ content) => p.lossless
  cases at? with
  | none =>
    refine lossless_record (fun _ => rfl) rfl (.cons hg (.cons hgu .nil)) ?_ ?_ ?_
    · simp
    · simp
    · simp [fieldsOf, Record.required?, Record.withDefault?, Keyed.lookup_entry, ht, hu]
  | some at_ =>
    have ho : ∀ a ∈ some at_, Lossless a := fun a ha => lossless_timestamp (h a ha)
    obtain ⟨v, hgv, hv⟩ := lossless_option rfl ho
    refine lossless_record (fun _ => rfl) rfl (.cons hg (.cons hgu (.cons hgv .nil))) ?_ ?_ ?_
    · simp
    · simp
    · simp [fieldsOf, Record.required?, Record.withDefault?, Keyed.lookup_entry, ht, hu, hv]

end Message

namespace TransportRequest

theorem lossless (r : TransportRequest)
    (h : ∀ m ∈ r.messages, ∀ t ∈ m.at?, Timestamp.parse? t.text = some t) : Lossless r := by
  obtain ⟨t, hg, ht⟩ := lossless_list fun m (hm : m ∈ r.messages) => m.lossless (h m hm)
  refine lossless_record (fun _ => rfl) rfl (.cons (gives_text r.requestId) (.cons hg .nil)) ?_ ?_ ?_
  · simp
  · simp
  · simp [fieldsOf, Record.required?, Keyed.lookup_entry, ht]

end TransportRequest

namespace Outcome

theorem lossless : (o : Outcome) → Lossless o
  | .completed => ⟨.object [(some "status", .text (some "completed"))],
      gives_object (.cons ⟨rfl, gives_text _⟩ .nil), rfl⟩
  | .failed error => by
    refine ⟨.object [(some "status", .text (some "failed")), (some "error", .text (some error))],
      ?_, rfl⟩
    exact gives_object (.cons ⟨rfl, gives_text _⟩ (.cons ⟨rfl, gives_text error⟩ .nil))
  | .cancelled => ⟨.object [(some "status", .text (some "cancelled"))],
      gives_object (.cons ⟨rfl, gives_text _⟩ .nil), rfl⟩

end Outcome

namespace Directive

theorem lossless (d : Directive) : Lossless d := by
  obtain ⟨action, prompt, destination⟩ := d
  obtain ⟨t, hg, ht⟩ := lossless_named (fun a : DirectiveAction => by cases a <;> rfl) action
  cases destination with
  | none =>
    refine lossless_record (fun _ => rfl) rfl (.cons hg (.cons (gives_text prompt) .nil)) ?_ ?_ ?_
    · simp
    · simp
    · simp [fieldsOf, Record.required?, Record.withDefault?, Keyed.lookup_entry, ht]
  | some destination =>
    refine lossless_record (fun _ => rfl) rfl
      (.cons hg (.cons (gives_text prompt) (.cons (gives_text destination) .nil))) ?_ ?_ ?_
    · simp
    · simp
    · simp [fieldsOf, Record.required?, Record.withDefault?, Keyed.lookup_entry, ht]

end Directive

namespace Settings

theorem lossless (s : Settings) : Lossless s := by
  obtain ⟨t, hg, ht⟩ := lossless_word s.requestTimeoutMs
  obtain ⟨u, hgu, hu⟩ := lossless_word s.streamIdleTimeoutMs
  obtain ⟨v, hgv, hv⟩ := lossless_named (fun d : Destination => by cases d <;> rfl)
    s.defaultDestination
  obtain ⟨w, hgw, hw⟩ := lossless_word s.telemetryIntervalSecs
  refine lossless_record (fun _ => rfl) rfl (.cons (gives_bool s.streaming)
    (.cons (gives_bool s.threadEnabled) (.cons hg (.cons hgu (.cons hgv (.cons hgw .nil)))))) ?_ ?_ ?_
  · simp [fieldNames]
  · simp
  · simp [fieldsOf, Record.withDefault?, Keyed.lookup_entry, ht, hu, hv, hw]

end Settings

/-! ### Attempts and refusals -/

namespace Transcript

theorem lossless (t : Transcript) : Lossless t := by
  obtain ⟨chunks, hgc, hc⟩ := lossless_texts t.chunks
  obtain ⟨axes, hga, ha⟩ := lossless_axes t.axes
  obtain ⟨counts, hgd, hd⟩ := lossless_counts t.dropCounts
  obtain ⟨sources, hgs, hs⟩ := lossless_counts t.dropSources
  obtain ⟨last, hgl, hl⟩ := lossless_optionalText t.lastDrop
  refine lossless_record (fun _ => rfl) rfl (.cons (gives_text t.requestId) (.cons hgc
    (.cons (gives_bool t.completed) (.cons (gives_bool t.errored)
      (.cons (gives_text t.errorMessage) (.cons hga (.cons hgd (.cons hgs (.cons hgl .nil)))))))))
    ?_ ?_ ?_
  · simp
  · simp
  · simp [fieldsOf, Record.required?, Record.optional?, Keyed.lookup_entry, hc, ha, hd, hs, hl]

end Transcript

namespace DropCount

theorem lossless (c : DropCount) : Lossless c := by
  obtain ⟨t, hg, ht⟩ := lossless_word c.count
  refine lossless_record (fun _ => rfl) rfl (.cons (gives_text c.reason) (.cons hg .nil)) ?_ ?_ ?_
  · simp
  · simp
  · simp [fieldsOf, Record.required?, Keyed.lookup_entry, ht]

end DropCount

namespace Snapshot

theorem lossless (s : Snapshot) : Lossless s := by
  obtain ⟨axes, hga, ha⟩ := lossless_axes s.axes
  obtain ⟨counts, hgc, hc⟩ := lossless_counts s.dropCounts
  obtain ⟨ranking, hgr, hr⟩ := lossless_list fun c (_ : c ∈ s.dropRanking) => c.lossless
  obtain ⟨sources, hgs, hs⟩ := lossless_counts s.dropSources
  obtain ⟨total, hgt, ht⟩ := lossless_word s.dropTotal
  obtain ⟨last, hgl, hl⟩ := lossless_option rfl fun c (_ : c ∈ s.lastDrop) => c.lossless
  refine lossless_record (fun _ => rfl) rfl (.cons (gives_text s.requestId)
    (.cons (gives_text s.text) (.cons (gives_bool s.completed) (.cons (gives_bool s.errored)
      (.cons (gives_text s.errorMessage) (.cons hga (.cons hgc (.cons hgr (.cons hgs
        (.cons hgt (.cons hgl .nil))))))))))) ?_ ?_ ?_
  · simp
  · simp
  · simp [fieldsOf, Record.required?, Record.optional?, Keyed.lookup_entry, ha, hc, hr, hs, ht, hl]

end Snapshot

namespace DropStatistics

theorem lossless (s : DropStatistics) : Lossless s := by
  obtain ⟨counts, hgc, hc⟩ := lossless_counts s.counts
  obtain ⟨sources, hgs, hs⟩ := lossless_counts s.sources
  obtain ⟨both, hgb, hb⟩ := lossless_keyed fun e (_ : e ∈ s.reasonSources.entries) =>
    lossless_counts e.2
  obtain ⟨drop, hgd, hd⟩ := lossless_option rfl fun d (_ : d ∈ s.lastDrop) =>
    lossless_pair (lossless_string d.1) (lossless_word d.2)
  obtain ⟨source, hgl, hl⟩ := lossless_optionalText s.lastSource
  obtain ⟨total, hgt, ht⟩ := lossless_word s.total
  refine lossless_record (fun _ => rfl) rfl (.cons hgc (.cons hgs (.cons hgb (.cons hgd
    (.cons hgl (.cons (gives_text s.lastMessage) (.cons hgt .nil))))))) ?_ ?_ ?_
  · simp
  · simp
  · simp [fieldsOf, Record.required?, Record.optional?, Keyed.lookup_entry, hc, hs, hb, hd, hl, ht]

end DropStatistics

/-! ### Entries of a log -/

namespace Note

theorem kept_optionalField {k : String} {o : Option String} :
    ∀ f ∈ optionalField k o, f.1 = k ∧ Kept f.2 := by
  cases o with
  | none => exact nofun
  | some s =>
    intro f hf
    obtain rfl := List.mem_singleton.1 hf
    exact ⟨rfl, kept_text s⟩

/-- What an entry tells is kept as it is, under names that no entry has of its own. -/
theorem fields_apart (n : Note) : ∀ f ∈ n.fields, f.1 ∉ StreamEvent.ownNames ∧ Kept f.2 := by
  cases n with
  | logEntry axes failure =>
    refine List.forall_mem_append.2 ⟨?_, fun f hf => ?_⟩
    · simp [StreamEvent.ownNames, kept_bool, kept_texts]
    · obtain ⟨hk, hj⟩ := kept_optionalField f hf
      exact ⟨by simp [hk, StreamEvent.ownNames], hj⟩
  | uiRefreshExecuted forced reason success fault =>
    refine List.forall_mem_append.2 ⟨?_, fun f hf => ?_⟩
    · simp [StreamEvent.ownNames, kept_bool, kept_text]
    · obtain ⟨hk, hj⟩ := kept_optionalField f hf
      exact ⟨by simp [hk, StreamEvent.ownNames], hj⟩
  | _ => simp [fields, StreamEvent.ownNames, kept_bool, kept_text, kept_texts]

end Note

namespace StreamEvent

/-- An entry is encoded without loss if what it tells stands apart from its own members. -/
theorem lossless (e : StreamEvent) (ht : Timestamp.parse? e.at_.text = some e.at_)
    (hf : ∀ f ∈ e.fields.entries, f.1 ∉ ownNames ∧ Kept f.2) : Lossless e := by
  obtain ⟨t, hg, hk⟩ := lossless_named (fun k : EventKind => by cases k <;> rfl) e.kind
  obtain ⟨u, hgu, hu⟩ := lossless_word e.seq
  obtain ⟨v, hgv, hv⟩ := lossless_timestamp ht
  obtain ⟨ts, hgs, hvs⟩ := kept_members fun f hm => (hf f hm).2
  have hown : GivesEach [("kind", toJson e.kind), ("request_id", .text e.requestId),
      ("seq", toJson e.seq), ("timestamp", toJson e.at_)] [t, .text (some e.requestId), u, v] :=
    .cons hg (.cons (gives_text _) (.cons hgu (.cons hgv .nil)))
  let own : List (String × Tree) :=
    [("kind", t), ("request_id", .text (some e.requestId)), ("seq", u), ("timestamp", v)]
  have hin : ∀ f ∈ own, ownNames.contains f.1 = true := by simp [own, ownNames]
  have hout : ∀ f ∈ fieldsOf e.fields.entries ts, ownNames.contains f.1 = false := by
    intro f hm
    have hmem : f.1 ∈ e.fields.entries.map (·.1) := by
      rw [← GivesEach.map_fst_fieldsOf hgs]
      exact List.mem_map_of_mem hm
    obtain ⟨g, hg, he⟩ := List.mem_map.1 hmem
    simpa [← he] using (hf g hg).1
  have hrecord := knownMembers?_append hin hout (by simp [own])
  have hothers := filter_others_append hin hout
  refine ⟨.object (written (own ++ fieldsOf e.fields.entries ts)),
    gives_object (hown.append hgs).written, ?_⟩
  show (do
      let r ← Tree.record? ownNames (.object (written (own ++ fieldsOf e.fields.entries ts)))
      let fields ← Tree.members? ((written (own ++ fieldsOf e.fields.entries ts)).filter
        fun m => !(m.1.any ownNames.contains)) (depthLimit - 1)
      return (⟨← r.required? "kind", ← r.required? "request_id", ← r.required? "seq",
        ← r.required? "timestamp", Keyed.ofList fields⟩ : StreamEvent)) = some e
  rw [Tree.record?, hrecord, hothers, show depthLimit - 1 = 125 + 1 from rfl, hvs]
  simp [own, Record.required?, Keyed.lookup_entry, hk, hu, hv, Keyed.ofList_entries]

theorem lossless_of_record? {a a' : Attempt} {n : Note} {now : Timestamp} {e : StreamEvent}
    (ht : Timestamp.parse? now.text = some now) (h : a.record? n now = some (a', e)) :
    Lossless e := by
  obtain ⟨t, _, rfl, rfl⟩ := Attempt.record?_eq_some h
  exact lossless _ ht fun f hf => n.fields_apart f (Keyed.mem_of_mem_ofList hf)

end StreamEvent

/-! ### Reading back -/

/-- Whatever is published is read back from its text: any phase state, message, request to the
model, transcript, snapshot, statistics, outcome, directive and settings, and any entry that an
attempt logs. An instant is taken to be read back from its own text. -/
theorem published_read_back :
    (∀ s : PhaseState, decode? (encode s) = some s) ∧
    (∀ m : Message, (∀ t ∈ m.at?, Timestamp.parse? t.text = some t) →
      decode? (encode m) = some m) ∧
    (∀ r : TransportRequest, (∀ m ∈ r.messages, ∀ t ∈ m.at?, Timestamp.parse? t.text = some t) →
      decode? (encode r) = some r) ∧
    (∀ t : Transcript, decode? (encode t) = some t) ∧
    (∀ s : Snapshot, decode? (encode s) = some s) ∧
    (∀ s : DropStatistics, decode? (encode s) = some s) ∧
    (∀ o : Outcome, decode? (encode o) = some o) ∧
    (∀ d : Directive, decode? (encode d) = some d) ∧
    (∀ s : Settings, decode? (encode s) = some s) ∧
    ∀ (a : Attempt) (n : Note) (now : Timestamp) (a' : Attempt) (e : StreamEvent),
      Timestamp.parse? now.text = some now → a.record? n now = some (a', e) →
        decode? (encode e) = some e := by
  refine ⟨fun s => s.lossless.decode?_encode, ?_, ?_, fun t => t.lossless.decode?_encode,
    fun s => s.lossless.decode?_encode, fun s => s.lossless.decode?_encode,
    fun o => o.lossless.decode?_encode, fun d => d.lossless.decode?_encode,
    fun s => s.lossless.decode?_encode, ?_⟩
  · intro m hm
    exact (m.lossless hm).decode?_encode
  · intro r hr
    exact (r.lossless hr).decode?_encode
  · intro a n now a' e ht h
    exact (StreamEvent.lossless_of_record? ht h).decode?_encode

/-- A request to the model that carries a text and an image at a known instant, and the entry of a
history that could not be written then. -/
theorem request_and_entry_read_back :
    let now := Timestamp.ofMillis 1234567890123
    let m : Message := ⟨.user, [.text "\"é\n\x01", .image ⟨"", "image/png"⟩], some now⟩
    let r : TransportRequest := ⟨"req-1", [m]⟩
    let a : Attempt := { requestId := "req-1", transcript := { requestId := "req-1" } }
    let n : Note := .logEntry ["tone"] (some "disk full")
    Timestamp.parse? now.text = some now ∧ decode? (encode m) = some m ∧
      decode? (encode r) = some r ∧
      a.record? n now = some ({ a with events := [a.entry n now] }, a.entry n now) ∧
      decode? (encode (a.entry n now)) = some (a.entry n now) := by
  intro now m r a n
  obtain ⟨-, hmessage, hrequest, -, -, -, -, -, -, hentry⟩ := published_read_back
  have ht : Timestamp.parse? now.text = some now := by decide +kernel
  have hm : ∀ t ∈ m.at?, Timestamp.parse? t.text = some t := by
    rintro _ ⟨⟩
    exact ht
  have hr : ∀ m' ∈ r.messages, ∀ t ∈ m'.at?, Timestamp.parse? t.text = some t := by
    intro m' h
    obtain rfl := List.mem_singleton.1 h
    exact hm
  exact ⟨ht, hmessage m hm, hrequest r hr, rfl, hentry a n now _ _ ht rfl⟩

end PromptDesk
