import ObjectStore.Proofs.World.SharedLoad

/-!
This module follows all who ask for the object of one relationship, while anything else goes on in the
session. It proves that a single call to the adapter serves them all with the same entity, and that a
load which fails is reported to all who wait for it and leaves the next one to start over.
-/

namespace ObjectStore.LinkSession

variable {w₀ w w' : World} {s₀ s s' s'' : LinkSession} {touched : EntityRef → String → Prop}
  {errands before after : List Errand} {errand : Errand} {e : EntityRef} {name : String}
  {l : LoadRef} {state : LoadState} {answers answers' : List (Except StoreError Outcome)}
  {gets gets' : List AdapterCall} {result : Except StoreError (Option EntityRef)}

/-- The entity has been handed out and is on an adapter, and the relationship leads to a type of the
schema. -/
structure Askable (s : LinkSession) (e : EntityRef) (name : String) : Prop where
  handedOut : s.Open e
  adapter_lt : (s.world.entity e).store.adapter < s.world.adapters.size
  foreignType : ∃ r objectType, (s.world.entity e).objectType.belongsTo? name = some r
    ∧
    (s.world.entity e).store.objectType r.foreignType = .ok objectType

/-- One move while the object of a relationship is asked for, with the answers that it brings and the
calls that it sends, the latest first. Of the loads, those count which the relationship waited for in the
first world, and later ones. Anything else may happen besides, but the relationship is not set, and the
entity is not reloaded. -/
inductive Move (w₀ : World) (e : EntityRef) (name : String)
    : LinkSession → LinkSession → List (Except StoreError Outcome) → List AdapterCall → Prop where
  | ask {w : World} {errands : List Errand}
    : Move w₀ e name ⟨w, errands⟩
        ⟨(w.start (.related e name)).2, errands ++ left w [] (w.start (.related e name))⟩
        (w.start (.related e name)).1.answers
        (w.newCalls (w.start (.related e name)).2 (w.entity e).store.adapter)
  | wait {w : World} {before after : List Errand} {errand : Errand} {l : LoadRef} {state : LoadState}
    (htask : errand.task = .joining l) (hload : w₀.LoadSince e name w l state)
    : Move w₀ e name ⟨w, before ++ errand :: after⟩
        ⟨(w.poll errand.task).2, before ++ left w errand.made (w.poll errand.task) ++ after⟩
        (w.poll errand.task).1.answers
        (w.newCalls (w.poll errand.task).2 (w.entity e).store.adapter)
  /-- Somebody waits for another load, such as one that was abandoned before. -/
  | waitForOther {w : World} {before after : List Errand} {errand : Errand} {l : LoadRef}
    (htask : errand.task = .joining l) (hother : ∀ state, ¬w₀.LoadSince e name w l state)
    : Move w₀ e name ⟨w, before ++ errand :: after⟩
        ⟨(w.poll errand.task).2, before ++ left w errand.made (w.poll errand.task) ++ after⟩ [] []
  | elsewhere {touched : EntityRef → String → Prop} {s s' : LinkSession} (hstep : Step touched s s')
    (haside : ¬touched e name) : Move w₀ e name s s' [] []

/-- All that ask for the object of a relationship from some session on. -/
inductive Asking (e : EntityRef) (name : String) (s₀ : LinkSession)
    : LinkSession → List (Except StoreError Outcome) → List AdapterCall → Prop where
  | begin : Asking e name s₀ s₀ [] []
  | move {s s' : LinkSession} {answers answers' : List (Except StoreError Outcome)}
    {gets gets' : List AdapterCall} (hrun : Asking e name s₀ s answers gets)
    (hmove : Move s₀.world e name s s' answers' gets')
    : Asking e name s₀ s' (answers ++ answers') (gets' ++ gets)

theorem open_left {made : List EntityRef} {out : Task × World} (he : e < w.entities.size)
    (hmade : e ∉ made) : ∀ errand ∈ left w made out, e ∉ errand.made := by
  intro errand herrand
  unfold left at herrand
  split at herrand
  . cases herrand
  . rw [List.mem_singleton.1 herrand, List.mem_append, List.mem_range'_1]
    rintro (hmem | ⟨hle, _⟩)
    . exact hmade hmem
    . exact Nat.not_lt.2 hle he

theorem Open.start {request : Request} (h : Open ⟨w, errands⟩ e)
    (hle : w.entities.size ≤ w'.entities.size) : Open ⟨w', errands ++ left w [] (w.start request)⟩ e := by
  refine ⟨Nat.lt_of_lt_of_le h.1 hle, ?_⟩
  intro errand herrand
  rcases List.mem_append.1 herrand with herrand | herrand
  . exact h.2 errand herrand
  . exact open_left h.1 List.not_mem_nil errand herrand

theorem Open.left {out : Task × World} (h : Open ⟨w, before ++ errand :: after⟩ e)
    (hle : w.entities.size ≤ w'.entities.size)
    : Open ⟨w', before ++ LinkSession.left w errand.made out ++ after⟩ e := by
  refine ⟨Nat.lt_of_lt_of_le h.1 hle, ?_⟩
  intro other hother
  have hmem := h.2 other
  simp only [List.mem_append, List.mem_cons] at hmem hother
  rcases hother with (hother | hother) | hother
  . exact hmem (.inl hother)
  . exact open_left h.1 (h.2 errand (by simp)) other hother
  . exact hmem (.inr (.inr hother))

/-- What has been handed out is never hidden again. -/
theorem Open.step (h : s.Open e) (hs : s.Valid) (hstep : Step touched s s') : s'.Open e := by
  have hle := (hs.step hstep).2.entities_le
  cases hstep with
  | start _ _ => exact h.start hle
  | poll => exact h.left hle
  | drop => exact h.without
  | _ => exact ⟨Nat.lt_of_lt_of_le h.1 hle, h.2⟩

theorem Askable.step (h : s.Askable e name) (hs : s.Valid) (hstep : Step touched s s')
    : s'.Askable e name := by
  have hevolves := (hs.step hstep).2
  have hidentity := hevolves.identity e h.handedOut.1
  constructor
  . exact h.handedOut.step hs hstep
  . rw [hidentity.store]
    exact Nat.lt_of_lt_of_le h.adapter_lt hevolves.adapters_le
  . rw [hidentity.objectType, hidentity.store]
    exact h.foreignType

theorem Move.step (hmove : Move w₀ e name s s' answers gets) (hopen : s.Open e)
    : ∃ touched, Step touched s s' := by
  cases hmove with
  | ask =>
    refine ⟨_, @Step.start _ _ (.related e name) trivial ?_⟩
    rintro e' name' ⟨rfl, rfl⟩
    exact hopen
  | wait _ _ | waitForOther _ _ => exact ⟨_, .poll⟩
  | elsewhere hstep _ => exact ⟨_, hstep⟩

/-- What is kept whoever asks. -/
structure Together (e : EntityRef) (name : String) (s₀ s : LinkSession)
    (answers : List (Except StoreError Outcome)) (gets : List AdapterCall) : Prop where
  steps : Steps s₀ s
  valid : s.Valid
  askable : s.Askable e name
  lt : e < s₀.world.entities.size
  shared : s₀.world.Shared e name s.world answers gets

/-- The link does not wait for another load, so that its result goes elsewhere. -/
theorem Together.pollOther (h : Together e name s₀ s answers gets)
    (hother : ∀ state, ¬s₀.world.LoadSince e name s.world l state)
    : World.Evolves World.nowhere
        (fun e' name' => (s.world.entity e').links.get? name' = some (.loading l)) s.world
        (s.world.pollLoad l)
        ∧
      (s.world.entity e).links.get? name ≠ some (.loading l) := by
  constructor
  . exact h.valid.coherent.pollLoad fun _ _ hlink => hlink
  . intro hlink
    obtain ⟨_, deadline, _, _, _, hload⟩ := h.shared.loadSince h.valid.coherent h.lt hlink
    exact hother _ hload

theorem Together.touches (h : Together e name s₀ s answers gets) (haside : ¬touched e name)
    : ¬(touched e name ∨ ¬s.Open e) :=
  not_or.2 ⟨haside, not_not_intro h.askable.handedOut⟩

theorem Move.shared (hmove : Move s₀.world e name s s' answers' gets')
    (h : Together e name s₀ s answers gets)
    : s₀.world.Shared e name s'.world (answers ++ answers') (gets' ++ gets) := by
  have hcoherent := h.valid.coherent
  cases hmove with
  | ask =>
    obtain ⟨r, objectType, hr, htype⟩ := h.askable.foreignType
    exact h.shared.ask hcoherent h.lt hr htype h.askable.adapter_lt
  | wait htask hload =>
    rw [htask, World.poll_joining, World.newCalls_of_adapters_eq]
    . exact h.shared.wait hcoherent h.lt hload
    . rw [World.pollJoining_world, World.adapters_pollLoad]
  | waitForOther htask hother =>
    obtain ⟨hpolled, hlink⟩ := h.pollOther hother
    rw [htask, World.poll_joining, World.pollJoining_world, List.append_nil]
    exact h.shared.aside h.lt hpolled id hlink
  | elsewhere hstep haside =>
    rw [List.append_nil]
    exact h.shared.aside h.lt (h.valid.step hstep).2 haside (h.touches haside)

theorem Together.move (h : Together e name s₀ s answers gets)
    (hmove : Move s₀.world e name s s' answers' gets')
    : Together e name s₀ s' (answers ++ answers') (gets' ++ gets) := by
  obtain ⟨touched, hstep⟩ := hmove.step h.askable.handedOut
  exact ⟨.tail h.steps ⟨touched, hstep⟩, (h.valid.step hstep).1, h.askable.step h.valid hstep, h.lt,
    hmove.shared h⟩

theorem Asking.together (hrun : Asking e name s₀ s answers gets) (hs₀ : s₀.Valid)
    (hask : s₀.Askable e name) : Together e name s₀ s answers gets := by
  induction hrun with
  | begin => exact ⟨.refl, hs₀, hask, hask.handedOut.1, .refl s₀.world e name⟩
  | move _ hmove ih => exact ih.move hmove

/-- A load of the relationship failed. Nothing is known of the object, all who still wait for the load get
its error, and the next one who asks sends a new call. -/
structure Failed (e : EntityRef) (name : String) (s : LinkSession) (l : LoadRef) (err : StoreError)
    : Prop where
  unknown : (s.world.entity e).links.get? name = none
  reported : ∀ later, Steps s later → ∀ errand ∈ later.errands, errand.task = .joining l →
    (later.world.poll errand.task).1 = .finished (.error err)
  retried : ∃ r id, (s.world.entity e).objectType.belongsTo? name = some r
    ∧
    (s.world.entity e).foreignId? name = some id
    ∧
    ∀ later answers, Asking e name s later answers [] →
      later.world.newCalls (later.world.start (.related e name)).2
          (later.world.entity e).store.adapter
        =
      [.get r.foreignType id]

theorem Together.retry (h : Together e name s₀ s answers [])
    (hlink : (s₀.world.entity e).links.get? name = none) {r : Relationship} {id : String}
    (hr : (s₀.world.entity e).objectType.belongsTo? name = some r)
    (hid : (s₀.world.entity e).foreignId? name = some id)
    : s.world.newCalls (s.world.start (.related e name)).2 (s.world.entity e).store.adapter
        =
      [.get r.foreignType id] := by
  have hidentity := h.shared.frame.identity e h.lt
  obtain ⟨r', objectType, hr', htype⟩ := h.askable.foreignType
  rw [← hidentity.objectType, hr'] at hr
  cases hr
  have hunknown := h.shared.idle rfl hlink (by rw [hid]; exact Option.some_ne_none id)
  obtain ⟨deadline, hstart⟩ := World.start_related_of_unknown hr' hunknown
    ((h.shared.foreignId? h.lt).trans hid) htype
  rw [hstart]
  apply World.newCalls_of_noteCall h.askable.adapter_lt
  rw [World.pollJoining_world, World.adapters_pollLoad]
  rfl

/-- A load that comes to its end does so for somebody who asks. -/
theorem Move.settles (hmove : Move s₀.world e name s s' answers' gets')
    (h : Together e name s₀ s answers gets) (hbefore : s.world.loadResult? l = none)
    (hafter : s₀.world.LoadSince e name s'.world l (.settled result))
    : ∃ task, answers' = task.answers ∧ World.Settles e name s.world (task, s'.world) l result := by
  have hcoherent := h.valid.coherent
  have he := h.shared.lt h.lt
  have hsettled := hafter.loadResult?
  cases hmove with
  | ask =>
    obtain ⟨r, objectType, hr, htype⟩ := h.askable.foreignType
    exact ⟨_, rfl, .of_new (hcoherent.ask_settles he hr htype) hbefore hsettled⟩
  | @wait w before after errand l' state htask hload =>
    refine ⟨_, rfl, .of_new ?_ hbefore hsettled⟩
    rw [htask, World.poll_joining]
    cases state with
    | underWay deadline =>
      exact (hcoherent.pollJoining_settles he (h.shared.waited l' deadline hload)).imp_right
        fun hsettles => ⟨l', hsettles⟩
    | settled result' =>
      rw [World.pollJoining_of_result hload.loadResult?]
      exact .inl fun _ => rfl
  | waitForOther htask hother =>
    obtain ⟨hpolled, hlink⟩ := h.pollOther hother
    rw [htask, World.poll_joining, World.pollJoining_world] at hafter
    have hload := (h.shared.loadSince_iff h.lt hpolled hlink l _).1 hafter
    rw [hload.loadResult?] at hbefore
    cases hbefore
  | elsewhere hstep haside =>
    have hevolves := (h.valid.step hstep).2
    have hload := (h.shared.loadSince_iff h.lt hevolves (h.touches haside) l _).1 hafter
    rw [hload.loadResult?] at hbefore
    cases hbefore

theorem Move.failed (hmove : Move s₀.world e name s s' answers' gets')
    (h : Together e name s₀ s answers gets) {err : StoreError}
    (hbefore : s.world.loadResult? l = none)
    (hafter : s₀.world.LoadSince e name s'.world l (.settled (.error err)))
    : answers' = [.error err] ∧ Failed e name s' l err := by
  obtain ⟨task, rfl, hsettles⟩ := hmove.settles h hbefore hafter
  have h' := h.move hmove
  have hfinished : task = .finished (.error err) := hsettles.finished
  refine ⟨by rw [hfinished]; rfl, hsettles.link, ?_, ?_⟩
  . intro later hsteps errand _ htask
    rw [htask, World.poll_joining,
      World.pollJoining_of_result (hsteps.loadResult? h'.valid hafter.loadResult?)]
    rfl
  . obtain ⟨r, _, hr, _⟩ := h'.askable.foreignType
    have hid : (s'.world.entity e).foreignId? name ≠ none := by
      rw [h'.shared.foreignId? h.lt, ← h.shared.foreignId? h.lt]
      exact hsettles.foreignId
    obtain ⟨id, hid⟩ := Option.ne_none_iff_exists'.1 hid
    refine ⟨r, id, hr, hid, ?_⟩
    intro later answers hrun
    exact (hrun.together h'.valid h'.askable).retry hsettles.link hr hid

theorem isFinished_or_lt_of_joining (hload : w₀.LoadSince e name w l state)
    : (w.poll (.joining l)).1.isFinished = true ∨ ∃ deadline, state = .underWay deadline
        ∧
      w.clock < deadline := by
  obtain ⟨_, load, hload, _, _, rfl⟩ := hload
  rw [World.poll_joining]
  cases hstate : load.state with
  | settled result =>
    rw [World.pollJoining_of_result (World.loadResult?_eq_some.2 ⟨load, hload, hstate⟩)]
    exact .inl rfl
  | underWay deadline =>
    by_cases hle : deadline ≤ w.clock
    . rw [World.pollJoining_of_due ⟨hload, deadline, hle, hstate⟩]
      exact .inl rfl
    . exact .inr ⟨deadline, rfl, Nat.not_le.1 hle⟩

/-- As long as no load fails, those who ask send a single call at most, and none if the object is known
or there is no id to look for. They all get the same entity, and whoever waits gets it as soon as the
call has arrived. If a load fails, they get its error, and only then is there a new call. -/
theorem shared_of_asking (hfresh : s.Fresh) (hsteps : Steps s s₀) (hask : s₀.Askable e name)
    (hrun : Asking e name s₀ s' answers gets)
    : (s₀.world.Unfailed e name s'.world →
        (gets = []
            ∨
          ∃ r id, (s₀.world.entity e).objectType.belongsTo? name = some r
            ∧
            (s₀.world.entity e).foreignId? name = some id
            ∧
            gets = [.get r.foreignType id])
          ∧
        ((s₀.world.entity e).foreignId? name = none
            ∨
          (∃ target, (s₀.world.entity e).links.get? name = some (.resolved target)) → gets = [])
          ∧
        ∃ target, ∀ answer ∈ answers, answer = .ok (.entity target))
        ∧
      (∀ errand ∈ s'.errands, ∀ l state, errand.task = .joining l →
        s₀.world.LoadSince e name s'.world l state →
          (s'.world.poll errand.task).1.isFinished = true
            ∨
          ∃ deadline, state = .underWay deadline ∧ s'.world.clock < deadline)
        ∧
      ∀ next answers' gets' l err, Move s₀.world e name s' next answers' gets' →
        s'.world.loadResult? l = none →
          s₀.world.LoadSince e name next.world l (.settled (.error err)) →
            answers' = [.error err] ∧ Failed e name next l err := by
  have htogether := hrun.together (hsteps.valid hfresh.valid) hask
  refine ⟨?_, ?_, ?_⟩
  . intro hunfailed
    have hphase := htogether.shared.phase hunfailed
    have honce := hphase.sentOnce
    refine ⟨?_, ?_, hphase.answers_eq⟩
    . exact honce.imp_right And.right
    . intro hknown
      rcases honce with hnone | ⟨hunknown, r, id, _, hid, _⟩
      . exact hnone
      . rcases hknown with hnothing | ⟨target, hlink⟩
        . rw [hid] at hnothing
          cases hnothing
        . rw [hunknown] at hlink
          cases hlink
  . intro errand _ l state htask hload
    rw [htask]
    exact isFinished_or_lt_of_joining hload
  . intro next answers' gets' l err hmove hbefore hafter
    exact hmove.failed htogether hbefore hafter

theorem askable_slowSession : slowSession.Askable 0 "room" :=
  ⟨open_slowSession, by decide, ⟨.belongsTo, "phone", "room", "room", "phones"⟩, roomType, rfl, rfl⟩

/-- One of two callers goes on. -/
def answerFirst (s : LinkSession) : LinkSession :=
  ⟨(s.world.poll (.joining 0)).2, [⟨.joining 0, []⟩]⟩

/-- Two callers ask for the room, and the call arrives. -/
theorem shared_of_asking_of_two_callers
    : ∃ s' answers gets, Asking 0 "room" slowSession s' answers gets
        ∧
      slowSession.world.Unfailed 0 "room" s'.world
        ∧
      answers.length = 1
        ∧
      gets.length = 1
        ∧
      (∃ target, ∀ answer ∈ answers, answer = .ok (.entity target))
        ∧
      ∀ errand ∈ s'.errands, errand.task = .joining 0 →
        (s'.world.poll errand.task).1.isFinished = true := by
  let asked := slowSession.askRoom.askRoom
  have hasked : Asking 0 "room" slowSession asked [] [.get "room" "hall"] :=
    .move (.move .begin .ask) .ask
  have hvalid := (hasked.together (steps_slowSession.valid fresh_phoneSession.valid)
    askable_slowSession).valid
  have hlate : Asking 0 "room" slowSession (asked.wait 10) [] [.get "room" "hall"] :=
    .move hasked (.elsewhere (hvalid.step_wait 10) id)
  have hload : slowSession.world.LoadSince 0 "room" (asked.wait 10).world 0 (.underWay 10) :=
    ⟨.inr (Nat.le_refl 0), _, rfl, rfl, rfl, rfl⟩
  have hwait := @Move.wait slowSession.world 0 "room" (asked.wait 10).world [] [⟨.joining 0, []⟩]
    ⟨.joining 0, []⟩ 0 _ rfl hload
  have hanswered : Asking 0 "room" slowSession (asked.wait 10).answerFirst
      [.ok (.entity (some 1))] [.get "room" "hall"] := .move hlate hwait
  have hsettled : slowSession.world.LoadSince 0 "room" (asked.wait 10).answerFirst.world 0
      (.settled (.ok (some 1))) := ⟨.inr (Nat.le_refl 0), _, rfl, rfl, rfl, rfl⟩
  have hunfailed : slowSession.world.Unfailed 0 "room" (asked.wait 10).answerFirst.world := by
    rintro l err ⟨_, load, hload, _, _, hfailed⟩
    obtain ⟨_, load', hload', _, _, hstate⟩ := hsettled
    have hl : l < 1 := World.lt_of_load? hload
    rw [Nat.lt_one_iff.1 hl, hload'] at hload
    cases hload
    rw [hstate] at hfailed
    cases hfailed
  obtain ⟨hshared, hfinished, _⟩ := shared_of_asking fresh_phoneSession steps_slowSession
    askable_slowSession hanswered
  obtain ⟨_, _, htarget⟩ := hshared hunfailed
  refine ⟨_, _, _, hanswered, hunfailed, rfl, rfl, htarget, ?_⟩
  intro errand herrand htask
  rcases hfinished errand herrand 0 _ htask hsettled with hdone | ⟨_, hunder, _⟩
  . exact hdone
  . cases hunder

end ObjectStore.LinkSession
