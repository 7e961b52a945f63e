import PromptDesk.Proofs.Counts
import PromptDesk.Proofs.Desk.DealingsAtWork

/-! Where the counts of refusals go. Every refusal is counted once: in an export, in counts that
somebody took, or in what the gate still holds. Exports that are empty are not made, and an exporter
that has ended after exports were stopped has left nothing that was counted before. -/
namespace PromptDesk

namespace Task

def isExports : Task → Bool
  | exports _ _ => true
  | request _ _ | execution _ _ | collect _ _ | read _ | await _ _ | sleep _ | present _ _ => false

end Task

/-- What was refused, by the codes of the reasons, and what counts were taken, the latest first. -/
structure DropLog where
  refused : List String := []
  taken : List Counts := []

namespace DropLog

/-- What is learned from the answer of a gate. -/
def learn (l : DropLog) : Answer → DropLog
  | .admission (.rejected reason _) => { l with refused := reason.code :: l.refused }
  | .counts counts => { l with taken := counts :: l.taken }
  | _ => l

/-- A log after an earlier one. -/
def after (l' l : DropLog) : DropLog := ⟨l'.refused ++ l.refused, l'.taken ++ l.taken⟩

end DropLog

namespace Desk

/-- An exporter that goes on works behind a job. -/
def isExporter (d : Desk) (i : Nat) : Bool := (d.job i).task.any Task.isExports

/-- Nothing happens to what the gate has counted and to exports. -/
structure LeavesCounts (d d' : Desk) : Prop where
  tally : d'.gate.tally = d.gate.tally
  exported : d'.exported = d.exported
  stopped : d.stopped = true → d'.stopped = true
  exporters : ∀ i, d.isExporter i = true → d'.isExporter i = true

/-- What happens at a desk from some moment on, with a log of the refusals and of the counts taken. An
export at the clock of an exporter that is to stop, too, is one that somebody asks for. -/
inductive Exporting (x : Desk) : DropLog → Desk → Prop
  | start : Exporting x {} x
  | obeys {l : DropLog} {d : Desk} (c : GateCommand) (run : Exporting x l d) :
      Exporting x (l.learn (d.obeyGate c).2) (d.obeyGate c).1
  /-- An attempt is refused for whatever reason. -/
  | refuses {l : DropLog} {d : Desk} (reason : DropReason) (source : String)
      (run : Exporting x l d) : Exporting x { l with refused := reason.code :: l.refused }
        { d with gate := (d.gate.reject reason source).1 }
  | turns {l : DropLog} {d : Desk} (i : Nat) (exporter : d.isExporter i = true)
      (run : Exporting x l d) : Exporting x l (d.turnOfJob i)
  | others {l : DropLog} {d d' : Desk} (leaves : d.LeavesCounts d') (run : Exporting x l d) :
      Exporting x l d'

/-- What one thing that happens does to the counts. -/
inductive Counting (d d' : Desk) (l : DropLog) : DropLog → Prop
  | stays (tally : d'.gate.tally = d.gate.tally) (exported : d'.exported = d.exported) :
      Counting d d' l l
  | counts (reason : DropReason) (tally : d'.gate.tally.counts = d.gate.tally.counts.bump reason.code)
      (exported : d'.exported = d.exported) :
      Counting d d' l { l with refused := reason.code :: l.refused }
  | takes (tally : d'.gate.tally = {}) (exported : d'.exported = d.exported) :
      Counting d d' l { l with taken := d.gate.tally.counts :: l.taken }
  | exports (tally : d'.gate.tally = {})
      (exported : d'.exported = (Telemetry.of? d.gate.tally.counts d.now).toList ++ d.exported) :
      Counting d d' l l

variable {x d d' : Desk} {l l' : DropLog} {i : Nat}

theorem Counting.of_eq {d₀ : Desk} (h : Counting d₀ d' l l') (tally : d₀.gate.tally = d.gate.tally)
    (exported : d₀.exported = d.exported) (now : d₀.now = d.now) : Counting d d' l l' := by
  cases h with
  | stays ht he => exact .stays (ht.trans tally) (he.trans exported)
  | counts reason ht he => exact .counts reason (tally ▸ ht) (he.trans exported)
  | takes ht he =>
    rw [tally]
    exact .takes ht (he.trans exported)
  | exports ht he => exact .exports ht (by rw [he, tally, exported, now])

theorem exported_withBoard (d : Desk) (b : Board) : (d.withBoard b).exported = d.exported :=
  filterMap_withBoard (fun _ => rfl) d b

/-- What an export leaves. -/
theorem exportCounts_eq (d : Desk) : d.exportCounts.1.gate.tally = {} ∧
    d.exportCounts.1.exported = (Telemetry.of? d.gate.tally.counts d.now).toList ++ d.exported ∧
    d.exportCounts.1.jobs = d.jobs ∧ d.exportCounts.1.stopped = d.stopped := by
  have hnow : ∀ g : Gate, ({ d with gate := g } : Desk).now = d.now := fun _ => rfl
  simp only [exportCounts, Gate.takeCounts, hnow]
  cases Telemetry.of? d.gate.tally.counts d.now <;> exact ⟨rfl, rfl, rfl, rfl⟩

theorem counting_withGate (d : Desk) {source : String} {out : Gate × Admission}
    (h : d.gate.Answers source out) (state : PhaseState) (l : DropLog) :
    Counting d (d.withGate out.1 state source out.2) l (l.learn (.admission out.2)) ∧
      (d.withGate out.1 state source out.2).jobs = d.jobs ∧
      (d.withGate out.1 state source out.2).stopped = d.stopped := by
  cases h with
  | admits tally id => exact ⟨.stays tally rfl, rfl, rfl⟩
  | refuses reason =>
    simp only [withGate, Gate.reject]
    split
    · exact ⟨.counts reason rfl (exported_withBoard _ _), rfl, rfl⟩
    · exact ⟨.counts reason rfl rfl, rfl, rfl⟩

/-- What a command for the gate does to the counts, and that exporters go on. -/
theorem counting_obeyGate (d : Desk) (c : GateCommand) (l : DropLog) :
    Counting d (d.obeyGate c).1 l (l.learn (d.obeyGate c).2) ∧
      d.jobs <+: (d.obeyGate c).1.jobs ∧
      (d.stopped = true → (d.obeyGate c).1.stopped = true) := by
  cases c with
  | tryBegin state source =>
    obtain ⟨h, hj, hs⟩ := counting_withGate d (Gate.answers_tryBegin d.gate state source) state l
    exact ⟨h, hj ▸ List.prefix_refl _, fun h => hs.trans h⟩
  | tryBeginCurrent source cutOff =>
    obtain ⟨h, hj, hs⟩ := counting_withGate d (Gate.answers_tryBeginCurrent d.gate _ source) _ l
    exact ⟨h, hj ▸ List.prefix_refl _, fun h => hs.trans h⟩
  | claim source =>
    obtain ⟨h, hj, hs⟩ := counting_withGate (d.withSlot (d.gate.tryClaim d.slot source).2.1)
      (Gate.answers_tryClaim d.gate d.slot source) d.slot.state l
    exact ⟨h.of_eq rfl rfl rfl, hj ▸ List.prefix_refl _, fun h => hs.trans h⟩
  | takeCounts => exact ⟨.takes rfl rfl, List.prefix_refl _, id⟩
  | exportCounts =>
    obtain ⟨ht, he, hj, hs⟩ := exportCounts_eq d
    have hl : l.learn (d.obeyGate .exportCounts).2 = l := by
      simp only [obeyGate]
      cases d.exportCounts.2 <;> rfl
    rw [hl]
    exact ⟨.exports ht he, (hj ▸ List.prefix_refl _ : d.jobs <+: d.exportCounts.1.jobs),
      fun h => hs.trans h⟩
  | takeLastDrop =>
    refine ⟨?_, List.prefix_refl _, id⟩
    have hl : l.learn (d.obeyGate .takeLastDrop).2 = l := by
      simp only [obeyGate, Gate.takeLastDrop]
      cases d.gate.lastDrop <;> rfl
    rw [hl]
    exact .stays rfl rfl
  | startExports interval => exact ⟨.stays rfl rfl, List.prefix_append .., id⟩
  | stopExports => exact ⟨.stays rfl rfl, List.prefix_refl _, fun _ => rfl⟩
  | statistics | lastDrop | observe on => exact ⟨.stays rfl rfl, List.prefix_refl _, id⟩

/-- The jobs after one of them was replaced. -/
theorem job_of_set {j : Job} (h : d'.jobs = d.jobs.set i j) (k : Nat) :
    d'.job k = if i = k ∧ k < d.jobs.length then j else d.job k := by
  simp only [job, h, List.getD_eq_getElem?_getD, List.getElem?_set]
  by_cases hik : i = k
  · subst hik
    by_cases hi : i < d.jobs.length <;> simp [hi]
  · simp [hik]

theorem job_of_set_ne {j : Job} {k : Nat} (h : d'.jobs = d.jobs.set i j) (hk : i ≠ k) :
    d'.job k = d.job k := (job_of_set h k).trans (if_neg fun h => hk h.1)

theorem job_of_grows (h : d.jobs <+: d'.jobs) (hi : i < d.jobs.length) : d'.job i = d.job i := by
  obtain ⟨js, hjs⟩ := h
  simp [job, ← hjs, List.getElem?_append_left hi]

theorem lt_of_task {t : Task} (h : (d.job i).task = some t) : i < d.jobs.length := by
  by_contra hi
  have hj : d.job i = default := by simp [job, List.getElem?_eq_none (Nat.le_of_not_lt hi)]
  rw [hj] at h
  cases h

theorem isExporter_iff : d.isExporter i = true ↔
    ∃ interval due, (d.job i).task = some (.exports interval due) := by
  rw [isExporter]
  cases (d.job i).task with
  | none => simp
  | some t => cases t <;> simp [Task.isExports]

theorem isExporter_of_grows (h : d.jobs <+: d'.jobs) (hi : d.isExporter i = true) :
    d'.isExporter i = true := by
  obtain ⟨interval, due, ht⟩ := isExporter_iff.1 hi
  rwa [isExporter, job_of_grows h (lt_of_task ht)]

namespace LeavesCounts

theorem of_jobs (tally : d'.gate.tally = d.gate.tally) (exported : d'.exported = d.exported)
    (stopped : d'.stopped = d.stopped) (jobs : d.jobs <+: d'.jobs) : LeavesCounts d d' :=
  ⟨tally, exported, fun h => stopped.trans h, fun _ => isExporter_of_grows jobs⟩

/-- Work that is no exporter may become what it likes. -/
theorem setJob (h : d.isExporter i = false) (j : Job) :
    LeavesCounts d { d with jobs := d.jobs.set i j } where
  tally := rfl
  exported := rfl
  stopped := id
  exporters k hk := by
    have hik : i ≠ k := fun he => by
      rw [he, hk] at h
      cases h
    rwa [isExporter, job_of_set_ne rfl hik]

theorem exporting (h : LeavesCounts d d') : ∃ l, Exporting d l d' := ⟨{}, .others h .start⟩

end LeavesCounts

/-- The turn of an exporter: it ends with an export once exports are to stop, and before that it goes
on, with or without an export. -/
theorem turn_exports (d : Desk) (interval : Nat) (due : Option Nat) :
    (d.stopped = true ∧
      d.turn (.exports interval due) = (d.exportCounts.1, .ended (.success .nothing))) ∨
    ∃ due', d.turn (.exports interval due) = (d.exportCounts.1, .waiting (.exports interval due')) ∨
      d.turn (.exports interval due) = (d, .waiting (.exports interval due')) := by
  by_cases hs : d.stopped = true
  · exact .inl ⟨hs, by simp only [turn, if_pos hs]⟩
  · refine .inr ?_
    simp only [turn, if_neg hs]
    split
    · rename_i hz
      exact ⟨none, .inr (by rw [hz])⟩
    · split
      · exact ⟨_, .inr rfl⟩
      · split
        · exact ⟨_, .inl rfl⟩
        · exact ⟨_, .inr rfl⟩

/-- What a turn of an exporter comes to. It exports at most, no other exporter is touched, and if it
has ended then exports were to stop and nothing is held any more. -/
structure ExporterTurn (d : Desk) (i : Nat) (d' : Desk) : Prop where
  counting : ∀ l, Counting d d' l l
  stopped : d'.stopped = d.stopped
  others : ∀ k, i ≠ k → d'.job k = d.job k
  ends : d'.isExporter i = true ∨ (d.stopped = true ∧ d'.gate.tally = {})

/-- Work that ends well leaves all but its handle alone. -/
theorem settle_success (d : Desk) (j : Job) (p : Product) :
    (d.settle j (.success p)).gate = d.gate ∧ (d.settle j (.success p)).journal = d.journal ∧
      (d.settle j (.success p)).stopped = d.stopped ∧ (d.settle j (.success p)).jobs = d.jobs := by
  have hr : d.returned j (.success p) = d := rfl
  rw [settle_eq, hr]
  cases j.handle with
  | none => exact ⟨rfl, rfl, rfl, rfl⟩
  | some k =>
    dsimp only
    rw [resolve]
    split <;> exact ⟨rfl, rfl, rfl, rfl⟩

/-- An exporter goes on that waits for its next turn. -/
theorem isExporter_of_set (hi : i < d.jobs.length) {j : Job} {interval : Nat} {due : Option Nat}
    (h : d'.jobs = d.jobs.set i { j with task := some (.exports interval due) }) :
    d'.isExporter i = true := by
  refine isExporter_iff.2 ⟨interval, due, ?_⟩
  rw [job_of_set h, if_pos ⟨rfl, hi⟩]

theorem exporterTurn (h : d.isExporter i = true) : d.ExporterTurn i (d.turnOfJob i) := by
  obtain ⟨interval, due, ht⟩ := isExporter_iff.1 h
  let d₀ : Desk := { d with jobs := d.jobs.set i { d.job i with task := none } }
  obtain ⟨htally, hexported, hjobs, hstopped⟩ := exportCounts_eq d₀
  have hlt : i < d₀.jobs.length := (List.length_set ..).symm ▸ lt_of_task ht
  have hothers : ∀ d' : Desk, d'.jobs = d₀.jobs → ∀ k, i ≠ k → d'.job k = d.job k :=
    fun d' hd k hk => job_of_set_ne hd hk
  rw [turnOfJob, ht]
  dsimp only
  rcases turn_exports d₀ interval due with ⟨hs, he⟩ | ⟨due', he | he⟩
  · rw [he]
    dsimp only
    obtain ⟨hg, hj, hst, hjo⟩ := settle_success (d₀.exportCounts.1.await i []) (d.job i) .nothing
    refine ⟨fun l => .exports (by rw [hg]; exact htally) ?_, hst.trans hstopped,
      hothers _ (hjo.trans hjobs), .inr ⟨hs, by rw [hg]; exact htally⟩⟩
    rw [exported, hj]
    exact hexported
  · rw [he]
    dsimp only
    have hset : ∀ d' : Desk, d'.jobs = d₀.exportCounts.1.jobs.set i
        { d.job i with task := some (.exports interval due') } →
        (∀ k, i ≠ k → d'.job k = d.job k) ∧ d'.isExporter i = true := fun d' hd' =>
      ⟨fun k hk => (job_of_set_ne hd' hk).trans (hothers _ hjobs k hk),
        isExporter_of_set (hjobs ▸ hlt) hd'⟩
    split <;>
      exact ⟨fun l => .exports htally hexported, hstopped, (hset _ rfl).1, .inl (hset _ rfl).2⟩
  · rw [he]
    dsimp only
    have hset : ∀ d' : Desk, d'.jobs = d₀.jobs.set i
        { d.job i with task := some (.exports interval due') } →
        (∀ k, i ≠ k → d'.job k = d.job k) ∧ d'.isExporter i = true := fun d' hd' =>
      ⟨fun k hk => (job_of_set_ne hd' hk).trans (hothers _ rfl k hk), isExporter_of_set hlt hd'⟩
    split <;> exact ⟨fun l => .stays rfl rfl, rfl, (hset _ rfl).1, .inl (hset _ rfl).2⟩

/-- The counts of all refusals are somewhere, and nowhere twice. -/
structure Balanced (l : DropLog) (d : Desk) : Prop where
  /-- The refusals by where their counts are. -/
  split : ∃ (delivered taken : List (List String)) (held : List String),
    d.exported.map Telemetry.counts = delivered.map Counts.tally ∧
      l.taken = taken.map Counts.tally ∧ d.gate.tally.counts = Counts.tally held ∧
      l.refused.Perm (held ++ (delivered.flatten ++ taken.flatten))
  whole : ∀ t ∈ d.exported, t.counts ≠ ∅ ∧ t.total = t.counts.total

namespace Balanced

theorem counting (h : Balanced l d) (hc : Counting d d' l l') : Balanced l' d' := by
  obtain ⟨⟨delivered, taken, held, hd, ht, hh, hp⟩, hw⟩ := h
  cases hc with
  | stays tally exported =>
    exact ⟨⟨delivered, taken, held, exported ▸ hd, ht, tally ▸ hh, hp⟩, exported ▸ hw⟩
  | counts reason tally exported =>
    refine ⟨⟨delivered, taken, reason.code :: held, exported ▸ hd, ht, ?_, ?_⟩, exported ▸ hw⟩
    · rw [tally, hh]
      rfl
    · exact hp.cons _
  | takes tally exported =>
    refine ⟨⟨delivered, held :: taken, [], exported ▸ hd, ?_, by rw [tally]; rfl, ?_⟩, exported ▸ hw⟩
    · rw [hh, ht]
      rfl
    · refine hp.trans ?_
      rw [List.flatten_cons, List.nil_append, ← List.append_assoc, ← List.append_assoc]
      exact List.perm_append_comm.append_right _
  | exports tally exported =>
    by_cases he : d.gate.tally.counts.isEmpty = true
    · have hnone : Telemetry.of? d.gate.tally.counts d.now = none := if_pos he
      rw [hnone] at exported
      obtain rfl : held = [] := Counts.eq_nil_of_isEmpty_tally (hh ▸ he)
      exact ⟨⟨delivered, taken, [], exported ▸ hd, ht, by rw [tally]; rfl, hp⟩, exported ▸ hw⟩
    · have hsome : Telemetry.of? d.gate.tally.counts d.now =
          some ⟨d.gate.tally.counts, d.gate.tally.counts.ranking, d.gate.tally.counts.total, d.now⟩ :=
        if_neg he
      rw [hsome] at exported
      refine ⟨⟨held :: delivered, taken, [], ?_, ht, by rw [tally]; rfl, ?_⟩, fun t ht => ?_⟩
      · rw [exported, List.map_cons, ← hh, ← hd]
        rfl
      · rwa [List.flatten_cons, List.nil_append, List.append_assoc]
      · rw [exported] at ht
        rcases List.mem_cons.1 ht with rfl | ht
        · refine ⟨fun hempty => he ?_, rfl⟩
          have hempty : d.gate.tally.counts = ∅ := hempty
          rw [hempty]
          rfl
        · exact hw t ht

end Balanced

/-- The gate holds nothing but some of the latest refusals of a log. -/
def HoldsLatest (l : DropLog) (d : Desk) : Prop :=
  ∃ held, held <+: l.refused ∧ d.gate.tally.counts = Counts.tally held

theorem HoldsLatest.of_empty (h : d.gate.tally = {}) (l : DropLog) : HoldsLatest l d :=
  ⟨[], List.nil_prefix, by rw [h]; rfl⟩

theorem HoldsLatest.counting (h : HoldsLatest l d) (hc : Counting d d' l l') : HoldsLatest l' d' := by
  obtain ⟨held, hp, hh⟩ := h
  cases hc with
  | stays tally exported => exact ⟨held, hp, by rw [tally, hh]⟩
  | counts reason tally exported =>
    exact ⟨reason.code :: held, List.cons_prefix_cons.2 ⟨rfl, hp⟩, by rw [tally, hh]; rfl⟩
  | takes tally exported => exact .of_empty tally _
  | exports tally exported => exact .of_empty tally _

namespace Exporting

theorem trans (h : Exporting x l d) (h' : Exporting d l' d') : Exporting x (l'.after l) d' := by
  induction h' with
  | start => exact h
  | obeys c run ih =>
    rename_i l₁ d₁
    have hl : (l₁.after l).learn (d₁.obeyGate c).2 = (l₁.learn (d₁.obeyGate c).2).after l := by
      unfold DropLog.learn
      split <;> rfl
    rw [← hl]
    exact ih.obeys c
  | refuses reason source run ih => exact ih.refuses reason source
  | turns i exporter run ih => exact ih.turns i exporter
  | others leaves run ih => exact ih.others leaves

/-- The counts are balanced at every moment. -/
theorem balanced (h : Exporting x l d) (hx : Balanced {} x) : Balanced l d := by
  induction h with
  | start => exact hx
  | obeys c run ih => exact ih.counting (counting_obeyGate _ c _).1
  | refuses reason source run ih => exact ih.counting (.counts reason rfl rfl)
  | turns i exporter run ih => exact ih.counting ((exporterTurn exporter).counting _)
  | others leaves run ih => exact ih.counting (.stays leaves.tally leaves.exported)

/-- From when exports are to stop, an exporter goes on or has left nothing that was counted before. -/
theorem flushes (h : Exporting d l d') (stopped : d.stopped = true) (hi : d.isExporter i = true) :
    d'.stopped = true ∧ (d'.isExporter i = true ∨ HoldsLatest l d') := by
  induction h with
  | start => exact ⟨stopped, .inl hi⟩
  | obeys c run ih =>
    obtain ⟨hc, hj, hs⟩ := counting_obeyGate _ c _
    exact ⟨hs ih.1, ih.2.imp (isExporter_of_grows hj) (·.counting hc)⟩
  | refuses reason source run ih => exact ⟨ih.1, ih.2.imp id (·.counting (.counts reason rfl rfl))⟩
  | turns k exporter run ih =>
    have ht := exporterTurn exporter
    refine ⟨ht.stopped.trans ih.1, ?_⟩
    by_cases hk : k = i
    · subst hk
      exact ht.ends.imp id fun he => .of_empty he.2 _
    · refine ih.2.imp (fun he => ?_) (·.counting (ht.counting _))
      rwa [isExporter, ht.others i hk]
  | others leaves run ih =>
    exact ⟨leaves.stopped ih.1,
      ih.2.imp (leaves.exporters i) (·.counting (.stays leaves.tally leaves.exported))⟩

end Exporting

/-- Nothing that happens at a desk loses a refusal or counts one twice: for each reason, what was
exported, what was taken and what the gate holds make up the refusals. Counts are words, so they are
exact below the number of words. No export is empty, the total of each is the sum of its counts, and
once an exporter has ended that was there when exports were to stop, the gate holds nothing but the
latest of the refusals since then. -/
theorem Exporting.conserves (run : Exporting x l d) (uncounted : x.gate.tally.counts = ∅)
    (unexported : x.exported = []) :
    (∀ reason,
      (d.exported.map (·.counts.count reason)).sum + (l.taken.map (·.count reason)).sum +
          d.gate.tally.counts.count reason = UInt64.ofNat (l.refused.count reason) ∧
        (l.refused.count reason < 2 ^ 64 →
          (d.exported.map fun t => (t.counts.count reason).toNat).sum +
              (l.taken.map fun c => (c.count reason).toNat).sum +
              (d.gate.tally.counts.count reason).toNat = l.refused.count reason)) ∧
      (∀ t ∈ d.exported, t.counts ≠ ∅ ∧ t.total = t.counts.values.sum) ∧
      ∀ {i : Nat} {l' : DropLog} {d' : Desk}, d.stopped = true → d.isExporter i = true →
        Exporting d l' d' → (d'.job i).task = none →
          ∃ held, held <+: l'.refused ∧ d'.gate.tally.counts = Counts.tally held := by
  have hx : Balanced {} x := by
    refine ⟨⟨[], [], [], by rw [unexported]; rfl, rfl, uncounted, List.Perm.refl _⟩, ?_⟩
    rw [unexported]
    simp
  obtain ⟨⟨delivered, taken, held, hd, ht, hh, hp⟩, hw⟩ := run.balanced hx
  refine ⟨fun reason => ?_, fun t ht => ?_, fun stopped hi after ended => ?_⟩
  · have hcount := hp.count_eq reason
    rw [List.count_append, List.count_append] at hcount
    have hmap : ∀ {α : Type} (f : Counts → α), (d.exported.map fun t => f t.counts) =
        (delivered.map Counts.tally).map f := fun f => by rw [← hd, List.map_map]; rfl
    refine ⟨?_, fun hlt => ?_⟩
    · rw [hmap (·.count reason), ht, hh, Counts.sum_count_tally, Counts.sum_count_tally,
        Counts.count_tally, hcount, UInt64.ofNat_add, UInt64.ofNat_add, UInt64.add_comm]
    · rw [hmap fun c => (c.count reason).toNat, ht, hh, Counts.sum_toNat_count_tally (by omega),
        Counts.sum_toNat_count_tally (by omega), Counts.toNat_count_tally (by omega)]
      omega
  · rw [(hw t ht).2, Counts.total_eq_sum]
    exact ⟨(hw t ht).1, rfl⟩
  · refine (after.flushes stopped hi).2.resolve_left fun he => ?_
    rw [isExporter, ended] at he
    cases he

/-- Two exporters, one of them with no interval. Counts are taken, exported on request and at the
clock, and what is refused while exports are to stop is exported at the end of one of them, but not
what is refused after that. -/
theorem Exporting.conserves_after_stop : ∃ (l l' : DropLog) (d d' : Desk),
    Exporting {} l d ∧ Exporting d l' d' ∧ d.stopped = true ∧ (d'.job 1).task = none ∧
    l.refused = ["quota", "in_flight", "in_flight", "in_flight", "quota", "in_flight"] ∧
    l'.refused = ["in_flight", "quota"] ∧ d.exported.length = 2 ∧ d'.exported.length = 3 ∧
    (d.exported.map fun t => (t.counts.count "in_flight").toNat).sum +
        (l.taken.map fun c => (c.count "in_flight").toNat).sum +
        (d.gate.tally.counts.count "in_flight").toNat = 4 ∧
    (∀ t ∈ d.exported, t.counts ≠ ∅ ∧ t.total = t.counts.values.sum) ∧
    d'.gate.tally.counts.count "quota" = 0 ∧
    ∃ held, held <+: l'.refused ∧ d'.gate.tally.counts = Counts.tally held := by
  let opened : Desk := {}
  have passes : ∀ d : Desk, LeavesCounts d { d with clock := d.clock + 1000 } := fun d =>
    .of_jobs rfl rfl rfl (List.prefix_refl _)
  have again : ∀ {l : DropLog} {d : Desk}, Exporting opened l d → Exporting d {} d := fun _ => .start
  have run : Exporting opened {} opened := .start
  have run := (run.obeys (.claim "k1")).obeys (.claim "k2")
  have run := (run.refuses (.other "quota") "menu").obeys .takeCounts
  have run := (run.obeys (.startExports (some 0))).obeys (.startExports (some 1000))
  have run := (run.obeys (.claim "k3")).obeys .exportCounts
  have run := (run.turns 0 (by decide +kernel)).turns 1 (by decide +kernel)
  have run := (run.obeys (.tryBeginCurrent "k4" false)).others (passes _)
  have run := (run.turns 1 (by decide +kernel)).obeys (.claim "k5")
  have run := (run.refuses (.other "quota") "menu").obeys .stopExports
  have after := (again run).refuses (.other "quota") "menu"
  have after := (after.turns 1 (by decide +kernel)).obeys (.claim "k6")
  obtain ⟨counts, whole, last⟩ := Exporting.conserves run rfl rfl
  refine ⟨_, _, _, _, run, after, rfl, by decide +kernel, by decide +kernel, by decide +kernel,
    by decide +kernel, by decide +kernel, ?_, whole, by decide +kernel,
    last (i := 1) rfl (by decide +kernel) after (by decide +kernel)⟩
  exact ((counts "in_flight").2 (by decide +kernel)).trans (by decide +kernel)

theorem Dealing.exporting {ok : Board.Use → Prop} (h : Dealing ok d d') :
    ∃ l, Exporting d l d' := by
  have board : ∀ (d : Desk) (b : Board), LeavesCounts d (d.withBoard b) := fun d b =>
    .of_jobs rfl (exported_withBoard d b) rfl (List.prefix_refl _)
  cases h with
  | refuses reason source => exact ⟨_, .refuses reason source .start⟩
  | takes => exact ⟨_, .obeys .takeCounts .start⟩
  | exports => exact ⟨_, .obeys .exportCounts .start⟩
  | stops => exact ⟨_, .obeys .stopExports .start⟩
  | use | adds | displays => exact ⟨_, .others (board d _) .start⟩
  | begins id axes =>
    have h : Exporting d {} (d.withBoard (d.board.beginOwned id d.slot.state).1) :=
      .others (board d _) .start
    refine ⟨{}, ?_⟩
    simp only [beginAttempt]
    split
    · split
      · exact h
      · exact h.others (board _ _)
    · exact h
  | forgoes id =>
    have h : Exporting d {} (d.withBoard (d.board.begin id).1) := .others (board d _) .start
    exact ⟨{}, h.others (board _ _)⟩
  | slot | settles => exact LeavesCounts.exporting (.of_jobs rfl rfl rfl (List.prefix_refl _))
  | spawns | dispatches => exact LeavesCounts.exporting (.of_jobs rfl rfl rfl (List.prefix_append ..))
  | aside h =>
    refine LeavesCounts.exporting (.of_jobs h.tally h.exported h.stopped ?_)
    rw [h.jobs]

/-- Whatever is done at a desk is something that happens to the counts. -/
theorem Dealings.exporting {ok : Board.Use → Prop} (h : Dealings ok d d') : ∃ l, Exporting d l d' :=
  h.respect (R := fun d d' => ∃ l, Exporting d l d') (fun _ => ⟨{}, .start⟩)
    (fun ⟨_, h⟩ ⟨_, h'⟩ => ⟨_, h.trans h'⟩) fun h => h.exporting

theorem exporting_settle (d : Desk) (j : Job) (e : Ending) : ∃ l, Exporting d l (d.settle j e) := by
  obtain ⟨l, h⟩ := (dealt_returned d j e).exporting
  rw [settle_eq]
  split
  · rw [resolve]
    split
    · exact ⟨l, h⟩
    · refine ⟨l, h.others ?_⟩
      exact .of_jobs rfl rfl rfl (List.prefix_refl _)
  · exact ⟨l, h⟩

theorem exporting_turn (d : Desk) (t : Task) : ∃ l, Exporting d l (d.turn t).1 :=
  respected_turn (R := fun d d' => ∃ l, Exporting d l d') (fun _ => ⟨{}, .start⟩)
    (fun h => h.exporting) (fun {d e} h => by
      refine LeavesCounts.exporting (.of_jobs rfl ?_ rfl (List.prefix_refl _))
      cases e <;> first | rfl | cases h) d t

/-- So is the turn of any job. -/
theorem exporting_turnOfJob (d : Desk) (i : Nat) : ∃ l, Exporting d l (d.turnOfJob i) := by
  cases hx : d.isExporter i with
  | true => exact ⟨_, .turns i hx .start⟩
  | false =>
    rw [turnOfJob]
    cases htask : (d.job i).task with
    | none => exact ⟨_, .start⟩
    | some t =>
      dsimp only
      let d₀ : Desk := { d with jobs := d.jobs.set i { d.job i with task := none } }
      have h₀ : Exporting d {} d₀ := .others (.setJob hx _) .start
      obtain ⟨l, h₁⟩ := exporting_turn d₀ t
      have hrun := h₀.trans h₁
      -- nothing is left of the job while it has its turn
      have hnone : (d₀.turn t).1.isExporter i = false := by
        have hlt : i < d₀.jobs.length := (List.length_set ..).symm ▸ lt_of_task htask
        rw [isExporter, job_of_grows (deeds_turn d₀ t).jobs hlt, job_of_set rfl,
          if_pos ⟨rfl, lt_of_task htask⟩]
        rfl
      generalize turn d₀ t = out at hrun hnone ⊢
      obtain ⟨d₁, t' | e⟩ := out
      · dsimp only at hrun hnone ⊢
        let d₂ : Desk := { d₁ with jobs := d₁.jobs.set i { d.job i with task := some t' } }
        have hput : d.Exporting _ d₂ := hrun.others (.setJob hnone _)
        split
        · have hline : LeavesCounts d₂ ((d₂.await i t'.interests).enqueue i) :=
            .of_jobs rfl rfl rfl (List.prefix_refl _)
          exact ⟨_, hput.others hline⟩
        · have hwait : LeavesCounts d₂ (d₂.await i t'.interests) :=
            .of_jobs rfl rfl rfl (List.prefix_refl _)
          exact ⟨_, hput.others hwait⟩
      · dsimp only at hrun ⊢
        have hwait : LeavesCounts d₁ (d₁.await i []) := .of_jobs rfl rfl rfl (List.prefix_refl _)
        obtain ⟨_, h'⟩ := exporting_settle (d₁.await i []) (d.job i) e
        exact ⟨_, (hrun.others hwait).trans h'⟩

end Desk

end PromptDesk
