import PromptDesk.Proofs.Desk.Hears

/-! The thread of a conversation that nobody interferes with. A request sends the system's message, the
thread, the queue and its own message; it adds its own message to the thread, and its reply as soon as
it is completed. A request whose source fails or panics leaves no trace. -/
namespace PromptDesk

/-- What happens in a conversation: a request is run to its end, for which the system's message may have
become another one, or a message is queued. -/
inductive Remark where
  | run (system : List String) (request : Request)
  | queue (message : Message)

/-- Nobody is called back. -/
def Remark.isMute : Remark → Bool
  | run _ request => request.all Step.isMute
  | queue _ => true

def Remark.queued : Remark → List Message
  | run _ _ => []
  | queue message => [message]

namespace Desk

/-- The lines of the system's message are others from now on. -/
def instruct (d : Desk) (system : List String) : Desk :=
  { d with setup := { d.setup with system := system } }

/-- A remark is made, and answered. -/
def hear (d : Desk) : Remark → Desk × Answer
  | .run system request =>
    let (d, report) := (d.instruct system).visit (.run request)
    (d, report.answer)
  | .queue message =>
    let (d, report) := d.visit (.step (.command (.conversation (.queue message))))
    (d, report.answer)

/-- Remarks are made one after the other. -/
def hearAll (d : Desk) (ms : List Remark) : Desk := ms.foldl (fun d m => (d.hear m).1) d

/-- What a remark adds to a thread in use: the user's message, unless a source fails or panics, and the
reply. -/
def adds (d : Desk) : Remark → List Message
  | .run system request =>
    match Source.answers request.sources with
    | .ok parts => .user request.prompt parts d.now :: (d.hear (.run system request)).2.said
    | .error _ => []
  | .queue _ => []

/-- What some remarks add, one after the other. -/
def spoken (d : Desk) : List Remark → List Message
  | [] => []
  | m :: ms => d.adds m ++ (d.hear m).1.spoken ms

theorem said_answerTo (e : Option Ending) : (answerTo .result e).said = saidAtEnd e := by
  rcases e with _ | p | f | message
  · rfl
  · cases p <;> rfl
  · rfl
  · rfl

/-- A conversation after a remark. -/
structure Heard (d : Desk) (m : Remark) : Prop where
  rest : (d.hear m).1.AtRest
  behaves : (d.hear m).1.Behaves Step.isMute
  settings : (d.hear m).1.setup.settings = d.setup.settings
  thread : (d.hear m).1.conversation.thread = d.conversation.thread ++ d.inThread (d.adds m)
  queued : (d.hear m).1.conversation.queued = d.conversation.queued ++ m.queued

theorem hear_run (d : Desk) (system : List String) (r : Request) (hrest : AtRest
    ((d.instruct system).waitForTask (.request r .conclude)).1) :
    d.hear (.run system r) =
      (((d.instruct system).waitForTask (.request r .conclude)).1,
        answerTo .result ((d.instruct system).waitForTask (.request r .conclude)).2) :=
  Prod.ext hrest.settleDown rfl

variable {d d' : Desk} {m : Remark} {ms : List Remark} {system : List String} {r : Request}
variable {parts : List Part}

/-- A request whose source fails or panics is not heard of. -/
theorem hear_of_error (hrest : d.AtRest) (hr : r.all Step.isMute = true) {mishap : Mishap}
    (hf : Source.answers r.sources = .error mishap) :
    d.hear (.run system r) = (d.instruct system, .ofMishap mishap) := by
  have hw : (d.instruct system).waitForTask (.request r .conclude) =
      (d.instruct system, some mishap.ending) :=
    Request.waitForTask_of_turn (turn_of_error hr hf _)
  rw [hear_run d system r (by rw [hw]; exact ⟨hrest.queue, hrest.waits⟩), hw]
  cases mishap <;> rfl

/-- A request whose sources give their parts says what it adds, and calls the transport with all the
messages for it. -/
theorem hear_of_ok (system : List String) (hrest : d.AtRest) (hb : d.Behaves Step.isMute)
    (hr : r.all Step.isMute = true) (hparts : Source.answers r.sources = .ok parts) :
    Hears (d.instruct system) (d.hear (.run system r)).1 (d.inThread (d.adds (.run system r))) ∧
      ((d.hear (.run system r)).1.calls = d.calls ∨
        ∃ id, (d.hear (.run system r)).1.calls =
          ⟨id, (d.instruct system).messagesFor r parts⟩ :: d.calls) ∧
      (d.slot.OpenTo r.id → (d.hear (.run system r)).1.calls ≠ d.calls) := by
  have hrest' : (d.instruct system).AtRest := ⟨hrest.queue, hrest.waits⟩
  have hb' : (d.instruct system).Behaves Step.isMute := ⟨hb.history, hb.replies⟩
  obtain ⟨hfirst, hcalls, hcalled, hwaits⟩ := hears_request hb' hr hparts
  obtain ⟨hh, hsame⟩ := hears_waitForTask hrest' hb' hfirst hwaits
  have heq := hear_run d system r (hh.rest hrest')
  have hadds : d.adds (.run system r) = [.user r.prompt parts d.now] ++
      saidAtEnd ((d.instruct system).waitForTask (.request r .conclude)).2 := by
    simp only [adds, hparts, heq, said_answerTo]
    rfl
  rw [hadds, heq, hsame]
  exact ⟨hh, hcalls, hcalled⟩

/-- Whatever comes of a request, only what it adds is heard. -/
theorem hears_run (hrest : d.AtRest) (hb : d.Behaves Step.isMute) (hr : r.all Step.isMute = true) :
    Hears (d.instruct system) (d.hear (.run system r)).1 (d.inThread (d.adds (.run system r))) := by
  cases hparts : Source.answers r.sources with
  | error mishap =>
    have hadds : d.adds (.run system r) = [] := by simp [adds, hparts]
    rw [hear_of_error hrest hr hparts, hadds, inThread_nil]
    exact .refl _
  | ok parts => exact (hear_of_ok system hrest hb hr hparts).1

theorem heard (hrest : d.AtRest) (hb : d.Behaves Step.isMute) (hm : m.isMute = true) :
    d.Heard m := by
  cases m with
  | queue message =>
    have heq : (d.hear (.queue message)).1 = { d with conversation := d.conversation.queue message } :=
      AtRest.settleDown (d := { d with conversation := d.conversation.queue message })
        ⟨hrest.queue, hrest.waits⟩
    have hadds : d.adds (.queue message) = [] := rfl
    refine ⟨?_, ?_, ?_, ?_, ?_⟩ <;> rw [heq]
    · exact ⟨hrest.queue, hrest.waits⟩
    · exact ⟨hb.history, hb.replies⟩
    · simp [hadds, Conversation.queue]
    · rfl
  | run system r =>
    have hh : Hears (d.instruct system) (d.hear (.run system r)).1
        (d.inThread (d.adds (.run system r))) := hears_run hrest hb hm
    exact {
      rest := hh.rest ⟨hrest.queue, hrest.waits⟩
      behaves := hh.behaves ⟨hb.history, hb.replies⟩
      settings := (congrArg Setup.settings hh.setup : _)
      thread := hh.thread
      queued := hh.queued.trans (List.append_nil _).symm }

/-- A conversation after some remarks. -/
theorem heard_all (hrest : d.AtRest) (hb : d.Behaves Step.isMute)
    (hms : ms.all Remark.isMute = true) :
    (d.hearAll ms).AtRest ∧ (d.hearAll ms).Behaves Step.isMute ∧
      (d.hearAll ms).setup.settings = d.setup.settings ∧
      (d.hearAll ms).conversation.thread = d.conversation.thread ++ d.inThread (d.spoken ms) ∧
      (d.hearAll ms).conversation.queued = d.conversation.queued ++ ms.flatMap Remark.queued := by
  induction ms generalizing d with
  | nil => exact ⟨hrest, hb, rfl, by simp [hearAll, spoken], by simp [hearAll]⟩
  | cons m ms ih =>
    rw [List.all_cons, Bool.and_eq_true] at hms
    have hh := heard hrest hb hms.1
    obtain ⟨hrest', hb', hsettings, hthread, hqueued⟩ := ih hh.rest hh.behaves hms.2
    have hsame : (d.hear m).1.inThread ((d.hear m).1.spoken ms) =
        d.inThread ((d.hear m).1.spoken ms) := by
      rw [inThread, hh.settings, inThread]
    refine ⟨hrest', hb', hsettings.trans hh.settings, ?_, ?_⟩
    · rw [spoken, inThread_append, ← hsame, ← List.append_assoc, ← hh.thread]
      exact hthread
    · rw [List.flatMap_cons, ← List.append_assoc, ← hh.queued]
      exact hqueued

/-- The law of the thread. After any remarks the thread holds what they added, if it is in use, and is
as it was otherwise. The next request leaves everything as it is if a source of it fails or panics; else
it calls the transport once at most, and once if the slot is open to it, with the system's message if there is
one, the thread if it is in use, what was queued, and its own message. -/
theorem thread_law (hrest : d.AtRest) (hb : d.Behaves Step.isMute)
    (hms : ms.all Remark.isMute = true) :
    (d.hearAll ms).conversation.thread = d.conversation.thread ++
        (if d.setup.settings.threadEnabled then d.spoken ms else []) ∧
      (d.hearAll ms).conversation.queued = d.conversation.queued ++ ms.flatMap Remark.queued ∧
      ∀ (system : List String) (r : Request), r.all Step.isMute = true →
        (∀ mishap, Source.answers r.sources = .error mishap →
          (d.hearAll ms).hear (.run system r) = ((d.hearAll ms).instruct system, .ofMishap mishap)) ∧
        ∀ parts, Source.answers r.sources = .ok parts →
          let before := d.hearAll ms
          let made := (before.hear (.run system r)).1.callsSince before
          made.length ≤ 1 ∧
            (before.slot.OpenTo r.id → made.length = 1) ∧
            ∀ c ∈ made, c.messages = (Message.system? system before.now).toList ++
              (if d.setup.settings.threadEnabled then before.conversation.thread else []) ++
              before.conversation.queued ++ [.user r.prompt parts before.now] := by
  obtain ⟨hrest', hb', hsettings, hthread, hqueued⟩ := heard_all hrest hb hms
  refine ⟨hthread, hqueued, fun system r hr => ⟨fun _ hf => hear_of_error hrest' hr hf, ?_⟩⟩
  intro parts hparts before made
  obtain ⟨-, hcalls, hcalled⟩ := hear_of_ok system hrest' hb' hr hparts
  have hmessages : (before.instruct system).messagesFor r parts =
      (Message.system? system before.now).toList ++
        (if d.setup.settings.threadEnabled then before.conversation.thread else []) ++
        before.conversation.queued ++ [.user r.prompt parts before.now] := by
    rw [← hsettings]
    rfl
  rcases hcalls with hcalls | ⟨id, hcalls⟩
  · have hmade : made = [] := callsSince_of_eq hcalls
    simp only [hmade]
    exact ⟨by simp, fun free => absurd hcalls (hcalled free), by simp⟩
  · have hmade : made = [⟨id, (before.instruct system).messagesFor r parts⟩] :=
      callsSince_eq hcalls
    rw [hmade]
    refine ⟨by simp, fun _ => rfl, fun c hc => ?_⟩
    rw [List.mem_singleton.1 hc, ← hmessages]

/-- A conversation with a reply, a request whose source fails, a queued message, a request that fails,
and a blank reply. -/
theorem thread_law_mixed :
    let ask (prompt : String) (sources : List Source) : Request := .mk prompt sources none none ∅
    let gives (content : Except Failure (List Part)) : Source := .mk (.mk [] content) []
    let d := opened { settings := { threadEnabled := true } }
      [⟨[], [.chunk "hi"]⟩, ⟨[], [.chunk "no", .fail (.unavailable "gone")]⟩, ⟨[], [.chunk " "]⟩] true
    let ms : List Remark := [.run ["s"] (ask "a" []), .run ["s"] (ask "f" [gives (.error .cancelled)]),
      .queue (.ofText .user "q" (.ofMillis 0)), .run [] (ask "b" []), .run ["s"] (ask "c" [])]
    let before := d.hearAll ms
    before.conversation.thread.map Message.text = ["a", "hi", "b", "c"] ∧
      before.conversation.queued.map Message.text = ["q"] ∧
      before.hear (.run ["s"] (ask "g" [gives (.error .cancelled)])) =
        (before.instruct ["s"], .failure .cancelled) ∧
      ((before.hear (.run ["s", "t"] (ask "d" [gives (.ok [.text " "]), gives (.ok [.text "x"])]))).1
        |>.callsSince before).map (fun c => c.messages.map Message.text) =
          [["st", "a", "hi", "b", "c", "q", "dx"]] := by
  intro ask gives d ms before
  have hb : d.Behaves Step.isMute := ⟨nofun, by decide⟩
  have hrest : d.AtRest := ⟨rfl, rfl⟩
  have hms : ms.all Remark.isMute = true := by decide
  obtain ⟨hthread, hqueued, hnext⟩ := thread_law hrest hb hms
  have hfails := (hnext ["s"] (ask "g" [gives (.error .cancelled)]) (by decide)).1 _ rfl
  obtain ⟨-, hone, hmessages⟩ := (hnext ["s", "t"]
    (ask "d" [gives (.ok [.text " "]), gives (.ok [.text "x"])]) (by decide)).2 _ rfl
  obtain ⟨c, hc⟩ := List.length_eq_one_iff.1 (hone nofun)
  refine ⟨?_, ?_, hfails, ?_⟩
  · rw [hthread]
    decide +kernel
  · rw [hqueued]
    decide +kernel
  · rw [hc, List.map_singleton, hmessages c (by simp [hc])]
    decide +kernel

end Desk

end PromptDesk
