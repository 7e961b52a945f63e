import PromptDesk.Proofs.Desk.Lobby
import PromptDesk.Proofs.Desk.Apart
import PromptDesk.Proofs.Desk.SpeechAtWork

/-! What is said in a lobby. Visitors who submit requests, jobs that have their turns, and whoever is
asked back say nothing as long as one request, which is with nobody in the lobby, keeps the slot. -/
namespace PromptDesk

open Slot (Move)

namespace Desk

/-- The requests in custody, and those that the transport was called for, got their ids at this desk.
If one request has an owner of its own, it is with nobody else. -/
structure Met (own : Option String) (P E : List String) (d : Desk) : Prop where
  known : Known P E d
  called : ∀ c ∈ d.calls, d.slot.Issued c.requestId
  threaded : d.setup.settings.threadEnabled = true
  issued : ∀ r, own = some r → d.slot.Issued r
  apart : ∀ r, own = some r → d.slot.Unwrapped → r ∉ P ∧ r ∉ E

variable {r : String} {own : Option String} {d d' : Desk} {P P' E E' : List String} {m : Move}

theorem Met.sound (h : Met own P E d) : d.slot.Sound := h.known.reach.sound Slot.sound_new

theorem Met.moved (h : Met own P E d) (ha : m.Allowed d.slot.state)
    (hk : ∀ q, q ∈ P' ∨ q ∈ E' → (m.after d.slot).Issued q)
    (hs : ∀ r, own = some r → (d.moved m).slot.Unwrapped → r ∉ P' ∧ r ∉ E') :
    Met own P' E' (d.moved m) where
  known := h.known.moved ha hk
  called c hc := (h.called c hc).after m
  threaded := h.threaded
  issued r hr := (h.issued r hr).after m
  apart := hs

theorem Met.retire {q : String} (h : Met own (q :: P) E d) : Met own P (q :: E) d :=
  { h with
    known := h.known.retire
    apart := fun r hr hb => by
      obtain ⟨hp, he⟩ := h.apart r hr hb
      rw [List.mem_cons, not_or] at hp
      exact ⟨hp.2, by simp [hp.1, he]⟩ }

/-- Requests in custody stay apart from one with an owner of its own. -/
theorem custody_met (r : String) (own : Option String) : Custody (Step.isCivil r) own (Met own) where
  sound h := h.sound
  frame h hs hc hset := {
    known := h.known.of_eq hs
    called := by rw [hc, hs]; exact h.called
    threaded := by rw [hset]; exact h.threaded
    issued := hs ▸ h.issued
    apart := hs ▸ h.apart }
  of_subperm h hp := { h with
    known := { h.known with
      issued := fun q hq => h.known.issued q (hq.imp_left fun hm => hp.subset hm) }
    apart := fun r hr hb => (h.apart r hr hb).imp_left fun hn hm => hn (hp.subset hm) }
  retire h := h.retire
  claim {P E d} h _ := by
    have hnext := (h.known.reach.counted Slot.counted_new).issued_nextId
    refine h.moved trivial (fun q hq => ?_) fun r hr hb => ?_
    · rcases hq with hq | hq
      · rcases List.mem_cons.1 hq with rfl | hq
        · exact hnext
        · exact (h.known.issued q (.inl hq)).after _
      · exact (h.known.issued q (.inr hq)).after _
    · obtain ⟨hp, he⟩ := h.apart r hr (unwrapped_of_moved hb)
      have hne := ((h.issued r hr).nextId_ne (Slot.Unwrapped.lt_of_send hb)).symm
      exact ⟨by simp [hne, hp], he⟩
  resend h _ := h.moved trivial (fun q hq => (h.retire.known.issued q hq).after _)
    fun r hr hb => h.retire.apart r hr (unwrapped_of_moved hb)
  serve h ha _ _ := h.moved ha (fun q hq => (h.known.issued q hq).after _)
    fun r hr hb => h.apart r hr (unwrapped_of_moved hb)
  called {e} _ _ d h hid := by
    obtain ⟨hs, hset, _, hc, _⟩ := called_eq d e
    refine ⟨h.known.of_eq hs, ?_, by rw [hset]; exact h.threaded, hs ▸ h.issued, hs ▸ h.apart⟩
    rw [hc, hs]
    refine List.forall_mem_cons.2 ⟨?_, h.called⟩
    exact hid.elim (fun hm => h.known.issued _ (.inr hm)) (h.issued _)
  command hc hl h :=
    (obey_isConsiderate (Step.isConsiderate_of_isCivil hc) hl h.sound).imp_right
      fun ⟨m, ha, _, hq⟩ => ⟨m, h.moved ha (fun q hq => (h.known.issued q hq).after m)
        fun r hr hb => h.apart r hr (unwrapped_of_moved hb), hq⟩
  started h := by cases h
  dispatched _ _ _ := rfl

theorem Tended.inUse {H : List String} (h : d.Tended (Step.isCivil r) (Met (some r)) H E) :
    d.InUse r where
  sound := h.custody.sound
  issued := h.custody.issued r rfl
  labelled := h.labelled
  behaves := h.behaves
  threaded := h.custody.threaded

/-- What a turn of a task comes to before a directive is followed: the reply was said. -/
inductive Concludes (d : Desk) : Task → Desk → Prop
  | request {q next : Request} {d' : Desk} {draft : Draft} {response : Response}
      (run : d.run q = (d', .ok (draft, .ended response))) :
      Concludes d (.request q (.delegate next true)) (d'.conclude draft.destination response).1
  | execution {e : Execution} {next : Request} {d' : Desk} {response : Response}
      (turn : d.execute e = (d', .ended response)) :
      Concludes d (.execution e (.delegate next true)) (d'.conclude e.draft.destination response).1

theorem Tended.concludes {p : Step → Bool} {F : List String → List String → Desk → Prop}
    {H : List String} {t : Task} (law : Custody p own F) (h : d.Tended p F (t.claim?.toList ++ H) E)
    (ht : t.IsProper p E) (hc : d.Concludes t d') : ∃ E', E ⊆ E' ∧ d'.Tended p F H E' := by
  obtain ⟨behaves, _, holds⟩ := ht
  cases hc with
  | @request q next d₁ draft response run =>
    obtain ⟨id, hid⟩ := Option.isSome_iff_exists.1 holds
    simp only [Task.all, Bool.and_eq_true] at behaves
    rw [show (Task.request q (.delegate next true)).claim? = some id from hid] at h
    obtain ⟨E', hE, _, h', _⟩ := h.run law hid behaves.1
    rw [run] at h'
    exact ⟨E', hE, h'.quiet law (quiet_conclude d₁ _ response)⟩
  | @execution e next d₁ response turn =>
    simp only [Task.all, Bool.and_eq_true] at behaves
    obtain ⟨E', hE, h', _⟩ := h.execute law (.inl holds) behaves.1
    rw [turn] at h'
    exact ⟨E', hE, h'.quiet law (quiet_conclude d₁ _ response)⟩

end Desk

namespace Lobby

/-- What the visitors are to send. -/
def prepared (x : Lobby) : List TransportRequest := x.guests.filterMap Job.prepared?

/-- What may happen in a lobby where something is said in requests only. -/
inductive Chats (r : String) : Lobby → Lobby → Prop
  | step {d : Desk} {gs : List Job} (s : Step) (hs : s.all (Step.isCivil r) = true) :
      Chats r ⟨d, gs⟩ ⟨(s.perform d).1, gs⟩
  | arrival {d d' : Desk} {gs : List Job} {source : String} {id : Option String} (q : Request)
      (hq : q.all (Step.isCivil r) = true) (hc : d.claim source = (d', .allowed id)) :
      Chats r ⟨d, gs⟩ ⟨d', gs ++ [Lobby.guest d' q id]⟩
  | refusal {d d' : Desk} {gs : List Job} {source message : String} {reason : DropReason}
      (hc : d.claim source = (d', .rejected reason message)) : Chats r ⟨d, gs⟩ ⟨d', gs⟩
  | visit {d : Desk} {gs : List Job} (j : Job) (hj : j.isPlain = true) :
      Chats r ⟨d, gs⟩ ⟨d, gs ++ [j]⟩
  | guest (x : Lobby) (i : Nat) : Chats r x (x.turnOfGuest i)
  | job {d : Desk} {gs : List Job} (i : Nat) : Chats r ⟨d, gs⟩ ⟨d.turnOfJob i, gs⟩
  /-- Time passes, or something else comes that requests do not depend on. -/
  | hush {d d' : Desk} {gs : List Job} (hq : d.Quiet d')
      (ht : d'.conversation.thread = d.conversation.thread) : Chats r ⟨d, gs⟩ ⟨d', gs⟩

abbrev Chat (r : String) : Lobby → Lobby → Prop := Relation.ReflTransGen (Chats r)

variable {r : String} {own : Option String} {x y : Lobby} {d : Desk} {E : List String}

theorem Chats.happens (h : Chats r x y) : Happens (Step.isCivil r) x y := by
  cases h with
  | step s hs => exact .step s hs
  | arrival q hq hc => exact .arrival q hq hc
  | refusal hc => exact .refusal hc
  | visit j hj => exact .visit j hj
  | guest _ i => exact .guest _ i
  | job i => exact .job i
  | hush hq _ => exact .quiet hq

theorem prepared_set (x : Lobby) (i : Nat) {j : Job} {c : TransportRequest}
    (h : c ∈ (x.guests.set i j).filterMap Job.prepared?) :
    c ∈ x.prepared ∨ j.prepared? = some c := by
  obtain ⟨k, hk, hc⟩ := List.mem_filterMap.1 h
  rcases List.mem_or_eq_of_mem_set hk with hk | rfl
  · exact .inl (List.mem_filterMap.2 ⟨k, hk, hc⟩)
  · exact .inr hc

theorem talks_turnOfGuest (h : x.Tended (Step.isCivil r) (Desk.Met (some r)) E) (i : Nat) :
    Desk.Talks r x.desk x.prepared (x.turnOfGuest i).desk (x.turnOfGuest i).prepared := by
  rw [Lobby.turnOfGuest]
  generalize hj : x.guests.getD i default = j
  cases ht : j.task with
  | none => exact .refl _
  | some t =>
    have hmem : j ∈ x.guests := List.mem_of_getElem? (hj ▸ Desk.getElem?_of_task (hj ▸ ht))
    have hclaim : x.desk.slot.Unwrapped → t.claim? ≠ some r := fun hb hcl =>
      (h.desk.custody.apart r rfl hb).1 <| List.mem_append_left _ <|
        List.mem_flatMap.2 ⟨j, hmem, by simp [Job.claim?_of_task ht, hcl]⟩
    have hat : ∀ c ∈ x.prepared ++ t.prepared?.toList, c ∈ x.prepared ++ x.desk.sendings := by
      intro c hc
      refine List.mem_append_left _ ((List.mem_append.1 hc).elim id fun hc => ?_)
      refine List.mem_filterMap.2 ⟨j, hmem, ?_⟩
      rwa [Job.prepared?_of_task ht, ← Option.mem_toList]
    have hturn := (Desk.talks_turn h.desk.inUse ((h.guests j hmem).task t ht) hclaim).beside x.prepared
    dsimp only
    generalize x.desk.turn t = out at hturn ⊢
    obtain ⟨d, t' | e⟩ := out
    · refine hturn.mono hat fun c hc => ?_
      rcases x.prepared_set i hc with hc | hc
      · exact List.mem_append_left _ (List.mem_append_left _ hc)
      · exact List.mem_append_left _ (List.mem_append_right _ (Option.mem_toList.2 hc))
    · refine (hturn.trans ((Desk.talks_settle d j e).beside x.prepared)).mono hat fun c hc => ?_
      rcases x.prepared_set i hc with hc | hc
      · exact List.mem_append_left _ (List.mem_append_left _ hc)
      · cases hc

/-- Whatever happens in the lobby, nothing is said while a request that is with nobody there keeps the
slot. -/
theorem Chats.talks (hs : Chats r x y) (h : x.Tended (Step.isCivil r) (Desk.Met (some r)) E) :
    Desk.Talks r x.desk x.prepared y.desk y.prepared := by
  have hd := h.desk.inUse
  cases hs with
  | @step d gs s hs =>
    have ht := ((Desk.manner_talks r).perform s _ hs hd).beside (Lobby.prepared ⟨d, gs⟩)
    rwa [List.append_nil] at ht
  | @arrival d d' gs source id q hq hc =>
    have hsame : Lobby.prepared ⟨d', gs ++ [Lobby.guest d' q id]⟩ = Lobby.prepared ⟨d, gs⟩ := by
      simp [Lobby.prepared, Lobby.guest, Job.prepared?, Task.prepared?]
    rw [hsame]
    exact (Desk.Talks.claim hd hc).1
  | @refusal d d' gs source message reason hc =>
    refine .of_quiet (Desk.claim_rejected hc) ?_
    rw [← Desk.conversation_claim d source, hc]
  | @visit d gs j hj =>
    have hsame : Lobby.prepared ⟨d, gs ++ [j]⟩ = Lobby.prepared ⟨d, gs⟩ := by
      simp [Lobby.prepared, Job.prepared?_of_isPlain hj]
    rw [hsame]
    exact .refl d
  | guest _ i => exact talks_turnOfGuest h i
  | @job d gs i =>
    have ht := (Desk.talks_turnOfJob hd i h.desk.jobs fun hb hm =>
      (h.desk.custody.apart r rfl hb).1 (List.mem_append_right _ hm)).beside (Lobby.prepared ⟨d, gs⟩)
    rwa [List.append_nil] at ht
  | hush hq ht => exact .of_quiet hq ht

theorem Chat.tended (run : Chat r x y) (h : x.Tended (Step.isCivil r) (Desk.Met own) E) :
    ∃ E', E ⊆ E' ∧ y.Tended (Step.isCivil r) (Desk.Met own) E' :=
  Run.tended (Desk.custody_met r own) (Relation.ReflTransGen.mono (fun _ _ => Chats.happens) _ _ run) h

theorem Chat.talks (run : Chat r x y) (h : x.Tended (Step.isCivil r) (Desk.Met (some r)) E) :
    Desk.Talks r x.desk x.prepared y.desk y.prepared := by
  induction run with
  | refl => exact .refl _
  | tail run hs ih =>
    obtain ⟨E', _, h'⟩ := Chat.tended run h
    exact ih.trans (hs.talks h')

/-- A visitor or a job has its turn, and its task is at hand. -/
inductive Takes (x : Lobby) : Task → Lobby → Prop
  | guest {t : Task} (i : Nat) (task : (x.guests.getD i default).task = some t) :
      Takes x t ⟨x.desk, x.guests.set i { x.guests.getD i default with task := none }⟩
  | job {t : Task} (i : Nat) (task : (x.desk.job i).task = some t) :
      Takes x t ⟨{ x.desk with jobs := x.desk.jobs.set i { x.desk.job i with task := none } }, x.guests⟩

theorem Tended.takes {p : Step → Bool} {F : List String → List String → Desk → Prop} {t : Task}
    (law : Custody p own F) (h : x.Tended p F E) (ht : x.Takes t y) :
    t.IsProper p E ∧ y.desk.Tended p F (t.claim?.toList ++ y.claimed) E ∧
      ∀ j ∈ y.guests, j.IsProper p E := by
  cases ht with
  | guest i task =>
    have hi := Desk.getElem?_of_task task
    generalize x.guests.getD i default = j at task hi ⊢
    have htake := Desk.claims_take hi (j := { j with task := none }) rfl
    rw [Job.claim?_of_task task] at htake
    refine ⟨(h.guests _ (List.mem_of_getElem? hi)).task t task, h.desk.of_perm law htake, ?_⟩
    intro j hj
    rcases List.mem_or_eq_of_mem_set hj with hj | rfl
    · exact h.guests j hj
    · exact Job.isProper_of_task rfl
  | job i task =>
    obtain ⟨hproper, _, hd⟩ := h.desk.takeJob law task
    exact ⟨hproper, hd, h.guests⟩

/-- The moments at which the slot may be claimed. -/
inductive Reaches (r : String) (x : Lobby) : Lobby → Prop
  | submission {y : Lobby} (run : Chat r x y) : Reaches r x y
  /-- A directive is followed in the turn in which the reply was said. -/
  | directive {y z : Lobby} {t : Task} {d : Desk} (run : Chat r x y) (takes : y.Takes t z)
      (concludes : z.desk.Concludes t d) : Reaches r x ⟨d, z.guests⟩

theorem Reaches.tended (h : Reaches r x y) (hx : x.Tended (Step.isCivil r) (Desk.Met own) E) :
    ∃ E', y.Tended (Step.isCivil r) (Desk.Met own) E' := by
  have law := Desk.custody_met r own
  cases h with
  | submission run =>
    obtain ⟨E', _, hy⟩ := Chat.tended run hx
    exact ⟨E', hy⟩
  | directive run takes concludes =>
    obtain ⟨E₁, _, hy⟩ := Chat.tended run hx
    obtain ⟨hproper, hd, hguests⟩ := hy.takes law takes
    obtain ⟨E₂, hE, hd'⟩ := hd.concludes law hproper concludes
    exact ⟨E₂, hd', fun j hj => (hguests j hj).mono hE⟩

/-- A request that is claimed is with nobody in the lobby. -/
theorem Tended.meets {source : String} (h : x.Tended (Step.isCivil r) (Desk.Met none) E)
    (claim : x.desk.claim source = (d, .allowed (some r))) :
    Tended (Step.isCivil r) (Desk.Met (some r)) E ⟨d, x.guests⟩ := by
  have hm := h.desk.custody
  obtain ⟨_, hid, hq⟩ := Desk.claim_allowed hm.sound.closed claim
  obtain rfl : r = x.desk.slot.nextId := Option.some.inj hid
  have hmoved : (x.desk.moved (.send none)).Tended (Step.isCivil x.desk.slot.nextId)
      (Desk.Met (some x.desk.slot.nextId)) x.claimed E := by
    refine h.desk.moved (List.Subset.refl E) ⟨?_, fun c hc => (hm.called c hc).after _, hm.threaded,
      ?_, ?_⟩
    · exact hm.known.moved trivial fun q hq => (hm.known.issued q hq).after _
    · rintro _ ⟨⟩
      exact (hm.known.reach.counted Slot.counted_new).issued_nextId
    · rintro _ ⟨⟩ hb
      have hn : ∀ q, x.desk.slot.Issued q → x.desk.slot.nextId ≠ q :=
        fun q hq => hq.nextId_ne (Slot.Unwrapped.lt_of_send hb)
      exact ⟨fun hp => hn _ (hm.known.issued _ (.inl hp)) rfl,
        fun he => hn _ (hm.known.issued _ (.inr he)) rfl⟩
  exact ⟨hmoved.quiet (Desk.custody_met _ _) hq, h.guests⟩

/-- What is to be sent, and what was sent, got its id at this desk. -/
theorem Tended.issued_sendings (h : x.Tended (Step.isCivil r) (Desk.Met own) E) :
    ∀ c ∈ x.prepared ++ x.desk.sendings, x.desk.slot.Issued c.requestId := by
  have hjob : ∀ j : Job, j.IsProper (Step.isCivil r) E → ∀ c, j.prepared? = some c →
      x.desk.slot.Issued c.requestId := by
    intro j hj c hc
    obtain ⟨t, ht, hc⟩ := Option.bind_eq_some_iff.1 hc
    cases t with
    | execution e sequel =>
      cases hc
      exact h.desk.custody.known.issued _ (.inr (hj.task _ ht).holds)
    | _ => cases hc
  intro c hc
  rcases List.mem_append.1 hc with hc | hc
  · obtain ⟨j, hj, hc⟩ := List.mem_filterMap.1 hc
    exact hjob j (h.guests j hj) c hc
  · rcases List.mem_append.1 hc with hc | hc
    · exact h.desk.custody.called c hc
    · obtain ⟨j, hj, hc⟩ := List.mem_filterMap.1 hc
      exact hjob j (h.desk.jobs j hj) c hc

end Lobby

end PromptDesk
