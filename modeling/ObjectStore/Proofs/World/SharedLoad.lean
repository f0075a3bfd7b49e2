import ObjectStore.Proofs.World.LinkSession

/-!
This module follows the callers that ask for the same related object at the same time. It proves that
they share one load: at most one call is sent for all of them, all get the same answer, and if the load
fails, the next one who asks starts over.
-/

namespace ObjectStore

/-- The answer that a task has come to. -/
def Task.answers : Task → List (Except StoreError Outcome)
  | finished result => [result]
  | _ => []

namespace World

/-- The calls that an adapter received between two worlds, the latest first. -/
def newCalls (w w' : World) (a : AdapterRef) : List AdapterCall :=
  (w'.adapter a).log.take ((w'.adapter a).log.length - (w.adapter a).log.length)

/-- A load of a relationship, and how far it has got. The relationship waited for it in the first
world, or it began later. -/
structure LoadSince (w₀ : World) (e : EntityRef) (name : String) (w : World) (l : LoadRef)
    (state : LoadState) : Prop where
  since : (w₀.entity e).links.get? name = some (.loading l) ∨ w₀.loads.size ≤ l
  load : ∃ load, w.load? l = some load
    ∧
    load.owner = e
    ∧
    load.relation = name
    ∧
    load.state = state

def Unfailed (w₀ : World) (e : EntityRef) (name : String) (w : World) : Prop :=
  ∀ l err, ¬LoadSince w₀ e name w l (.settled (.error err))

/-- No call was sent, or the one call for the object, which was unknown. -/
def SentOnce (w₀ : World) (e : EntityRef) (name : String) (gets : List AdapterCall) : Prop :=
  gets = []
    ∨
  (w₀.entity e).links.get? name = none
    ∧
  ∃ r id, (w₀.entity e).objectType.belongsTo? name = some r
    ∧
    (w₀.entity e).foreignId? name = some id
    ∧
    gets = [.get r.foreignType id]

/-- How far the callers have got, as long as no load fails. -/
inductive Phase (w₀ : World) (e : EntityRef) (name : String) (w : World)
    : List (Except StoreError Outcome) → List AdapterCall → Prop where
  | unknown (hlink : (w.entity e).links.get? name = none)
    (hbefore : (w₀.entity e).links.get? name = none)
    (hnone : ∀ l state, ¬LoadSince w₀ e name w l state) : Phase w₀ e name w [] []
  | underWay {l : LoadRef} {gets : List AdapterCall}
    (hlink : (w.entity e).links.get? name = some (.loading l))
    (honly : ∀ l' state, LoadSince w₀ e name w l' state → l' = l)
    (hgets : SentOnce w₀ e name gets) : Phase w₀ e name w [] gets
  | known {target : Option EntityRef} {answers : List (Except StoreError Outcome)}
    {gets : List AdapterCall} (hlink : (w.entity e).links.get? name = some (.resolved target))
    (hsettled : ∀ l state, LoadSince w₀ e name w l state → state = .settled (.ok target))
    (hanswers : ∀ answer ∈ answers, answer = .ok (.entity target))
    (hgets : SentOnce w₀ e name gets) : Phase w₀ e name w answers gets

/-- What the callers keep. A load that has not come to its end is the one that the link waits for, and
the object stays unknown until a call is sent for it. -/
structure Shared (w₀ : World) (e : EntityRef) (name : String) (w : World)
    (answers : List (Except StoreError Outcome)) (gets : List AdapterCall) : Prop where
  frame : Frame (fun e' name' => ¬(e' = e ∧ name' = name)) (fun _ _ => True) w₀ w
  waited : ∀ l deadline, LoadSince w₀ e name w l (.underWay deadline) →
    (w.entity e).links.get? name = some (.loading l)
  idle : gets = [] → (w₀.entity e).links.get? name = none → (w₀.entity e).foreignId? name ≠ none →
    (w.entity e).links.get? name = none
  phase : Unfailed w₀ e name w → Phase w₀ e name w answers gets

variable {ids links : EntityRef → String → Prop} {w₀ w w' : World} {e : EntityRef} {name : String}
  {l : LoadRef} {load : Load} {state : LoadState} {a : AdapterRef}
  {answers : List (Except StoreError Outcome)} {gets : List AdapterCall}
  {result : Except StoreError (Option EntityRef)} {x : Entity}

theorem newCalls_of_adapters_eq (h : w'.adapters = w.adapters) : w.newCalls w' a = [] := by
  unfold newCalls World.adapter
  rw [h, Nat.sub_self, List.take_zero]

theorem newCalls_of_noteCall {call : AdapterCall} (ha : a < w.adapters.size)
    (h : w'.adapters = (w.modifyAdapter a fun adapter => adapter.noteCall call).adapters)
    : w.newCalls w' a = [call] := by
  have hadapter : w'.adapter a = (w.adapter a).noteCall call := by
    rw [← w.adapter_modifyAdapter_self (f := fun adapter => adapter.noteCall call) ha]
    unfold World.adapter
    rw [h]
  unfold newCalls
  rw [hadapter]
  unfold Adapter.noteCall
  rw [List.length_cons, Nat.add_sub_cancel_left]
  rfl

theorem adapters_settleLoad (w : World) (l : LoadRef) (result : Except StoreError (Option EntityRef))
    : (w.settleLoad l result).adapters = w.adapters := by
  unfold settleLoad
  split <;> rfl

theorem adapters_pollLoad (w : World) (l : LoadRef) : (w.pollLoad l).adapters = w.adapters := by
  by_cases hdue : ∃ load, w.Due l load
  . obtain ⟨load, hdue⟩ := hdue
    rw [pollLoad_of_due hdue, arriveLoad_eq, adapters_settleLoad]
    exact (w.fetchLoad_aside load).2.1
  . rw [pollLoad_of_not_due (not_exists.1 hdue)]

theorem pollJoining_world (w : World) (l : LoadRef) : (w.pollJoining l).2 = w.pollLoad l := by
  unfold pollJoining
  dsimp only
  split <;> rfl

/-- At the beginning, no load counts but the one that the link waits for. -/
theorem LoadSince.link_eq (h : LoadSince w e name w l state)
    : (w.entity e).links.get? name = some (.loading l) := by
  obtain ⟨hlink | hle, load, hload, _⟩ := h
  . exact hlink
  . exact absurd (lt_of_load? hload) (Nat.not_lt.2 hle)

theorem Shared.refl (w : World) (e : EntityRef) (name : String) : Shared w e name w [] [] where
  frame := .refl w
  waited _ _ hload := hload.link_eq
  idle _ hlink _ := hlink
  phase _ := by
    cases hlink : (w.entity e).links.get? name with
    | none =>
      apply Phase.unknown hlink hlink
      intro l state hload
      have hloading := hload.link_eq
      rw [hlink] at hloading
      cases hloading
    | some link =>
      cases link with
      | loading l =>
        apply Phase.underWay hlink _ (.inl rfl)
        intro l' state hload
        have hloading := hload.link_eq
        rw [hlink] at hloading
        cases hloading
        rfl
      | resolved target =>
        apply Phase.known hlink _ (by simp) (.inl rfl)
        intro l state hload
        have hloading := hload.link_eq
        rw [hlink] at hloading
        cases hloading

theorem Shared.lt (h : Shared w₀ e name w answers gets) (he : e < w₀.entities.size)
    : e < w.entities.size :=
  Nat.lt_of_lt_of_le he h.frame.entities_le

theorem LoadSince.loadResult? (h : LoadSince w₀ e name w l (.settled result))
    : w.loadResult? l = some result := by
  obtain ⟨_, load, hload, _, _, hstate⟩ := h
  exact loadResult?_eq_some.2 ⟨load, hload, hstate⟩

theorem Shared.foreignId? (h : Shared w₀ e name w answers gets) (he : e < w₀.entities.size)
    : (w.entity e).foreignId? name = (w₀.entity e).foreignId? name := by
  unfold Entity.foreignId?
  rw [h.frame.foreignId e he name fun hne => hne ⟨rfl, rfl⟩]

theorem Shared.loadSince (h : Shared w₀ e name w answers gets) (hw : w.Coherent)
    (he : e < w₀.entities.size) (hlink : (w.entity e).links.get? name = some (.loading l))
    : ∃ load deadline, w.load? l = some load
        ∧
      load.Serves e (w.entity e) name
        ∧
      load.state = .underWay deadline
        ∧
      LoadSince w₀ e name w l (.underWay deadline) := by
  obtain ⟨load, hload, hserves⟩ := (hw.links e (h.lt he) name).loading l hlink
  obtain ⟨deadline, hunder⟩ := hserves.underWay
  exact ⟨load, deadline, hload, hserves, hunder, h.frame.begun e he name l hlink, load, hload,
    hserves.owner, hserves.relation, hunder⟩

theorem Unfailed.of_imp (h : Unfailed w₀ e name w')
    (hloads : ∀ l result, LoadSince w₀ e name w l (.settled result) →
      LoadSince w₀ e name w' l (.settled result))
    : Unfailed w₀ e name w :=
  fun l err hload => h l err (hloads l _ hload)

/-- Nobody but the callers completes a load of theirs. -/
theorem Shared.state_eq (h : Shared w₀ e name w answers gets) (hw' : w'.Coherent)
    (he : e < w'.entities.size) (hlink : (w'.entity e).links.get? name = (w.entity e).links.get? name)
    {load' : Load} (hload : LoadSince w₀ e name w l load.state) (hload' : w'.load? l = some load')
    (hcontinues : load.Continues load') : load'.state = load.state := by
  rcases hcontinues.state with hsame | ⟨deadline, result, hunder, hsettled⟩
  . exact hsame
  . rw [hunder] at hload
    have hloading := hlink.trans (h.waited l deadline hload)
    obtain ⟨load'', hload'', hserves⟩ := (hw'.links e he name).loading l hloading
    rw [hload'] at hload''
    cases hload''
    obtain ⟨deadline', hunder'⟩ := hserves.underWay
    rw [hsettled] at hunder'
    cases hunder'

theorem Shared.loadSince_iff (h : Shared w₀ e name w answers gets) (he : e < w₀.entities.size)
    (hevolves : Evolves ids links w w') (hlinks : ¬links e name) (l : LoadRef) (state : LoadState)
    : LoadSince w₀ e name w' l state ↔ LoadSince w₀ e name w l state := by
  have hlink := hevolves.link e (h.lt he) name hlinks
  have he' := Nat.lt_of_lt_of_le (h.lt he) hevolves.entities_le
  constructor
  . rintro ⟨hsince, load', hload', rfl, rfl, rfl⟩
    have hlt := (hevolves.started l load' hload').resolve_right hlinks
    obtain ⟨load, hload⟩ := exists_load?_of_lt hlt
    obtain ⟨load'', hload'', hcontinues⟩ := hevolves.loads l load hload
    rw [hload'] at hload''
    cases hload''
    have hbefore : LoadSince w₀ load'.owner load'.relation w l load.state :=
      ⟨hsince, load, hload, hcontinues.owner.symm, hcontinues.relation.symm, rfl⟩
    rw [h.state_eq hevolves.coherent he' hlink hbefore hload' hcontinues]
    exact hbefore
  . rintro ⟨hsince, load, hload, rfl, rfl, rfl⟩
    obtain ⟨load', hload', hcontinues⟩ := hevolves.loads l load hload
    refine ⟨hsince, load', hload', hcontinues.owner, hcontinues.relation, ?_⟩
    exact h.state_eq hevolves.coherent he' hlink ⟨hsince, load, hload, rfl, rfl, rfl⟩ hload'
      hcontinues

/-- Something happens elsewhere. -/
theorem Shared.aside (h : Shared w₀ e name w answers gets) (he : e < w₀.entities.size)
    (hevolves : Evolves ids links w w') (hids : ¬ids e name) (hlinks : ¬links e name)
    : Shared w₀ e name w' answers gets := by
  have hlink := hevolves.link e (h.lt he) name hlinks
  have hloads := h.loadSince_iff he hevolves hlinks
  constructor
  . apply h.frame.trans
    apply hevolves.toFrame.mono
    . rintro e' name' hid ⟨rfl, rfl⟩
      exact hids hid
    . exact fun _ _ _ => trivial
  . intro l deadline hload
    rw [hlink]
    exact h.waited l deadline ((hloads l _).1 hload)
  . rw [hlink]
    exact h.idle
  . intro hunfailed
    cases h.phase (hunfailed.of_imp fun l result => (hloads l _).2) with
    | unknown hunknown hbefore hnone =>
      exact .unknown (hlink.trans hunknown) hbefore fun l state => mt (hloads l state).1 (hnone l state)
    | underWay hloading honly hgets =>
      exact .underWay (hlink.trans hloading)
        (fun l state hload => honly l state ((hloads l state).1 hload)) hgets
    | known hknown hsettled hanswers hgets =>
      exact .known (hlink.trans hknown)
        (fun l state hload => hsettled l state ((hloads l state).1 hload)) hanswers hgets

theorem Phase.of_none (h : Phase w₀ e name w answers gets)
    (hlink : (w.entity e).links.get? name = none)
    : answers = []
        ∧
      gets = []
        ∧
      (w₀.entity e).links.get? name = none
        ∧
      ∀ l state, ¬LoadSince w₀ e name w l state := by
  cases h with
  | unknown _ hbefore hnone => exact ⟨rfl, rfl, hbefore, hnone⟩
  | underWay hloading _ _ =>
    rw [hlink] at hloading
    cases hloading
  | known hknown _ _ _ =>
    rw [hlink] at hknown
    cases hknown

theorem Phase.of_loading (h : Phase w₀ e name w answers gets)
    (hlink : (w.entity e).links.get? name = some (.loading l))
    : answers = []
        ∧
      SentOnce w₀ e name gets
        ∧
      ∀ l' state, LoadSince w₀ e name w l' state → l' = l := by
  cases h with
  | unknown hunknown _ _ =>
    rw [hlink] at hunknown
    cases hunknown
  | underWay hloading honly hgets =>
    rw [hlink] at hloading
    cases hloading
    exact ⟨rfl, hgets, honly⟩
  | known hknown _ _ _ =>
    rw [hlink] at hknown
    cases hknown

theorem Phase.hear (h : Phase w₀ e name w answers gets) {target : Option EntityRef}
    (hlink : (w.entity e).links.get? name = some (.resolved target))
    : Phase w₀ e name w (answers ++ [.ok (.entity target)]) gets := by
  cases h with
  | unknown hunknown _ _ =>
    rw [hlink] at hunknown
    cases hunknown
  | underWay hloading _ _ =>
    rw [hlink] at hloading
    cases hloading
  | known hknown hsettled hanswers hgets =>
    rw [hlink] at hknown
    cases hknown
    apply Phase.known hlink hsettled _ hgets
    simpa [or_imp, forall_and] using hanswers

theorem Phase.sentOnce (h : Phase w₀ e name w answers gets) : SentOnce w₀ e name gets := by
  cases h with
  | unknown _ _ _ => exact .inl rfl
  | underWay _ _ hgets => exact hgets
  | known _ _ _ hgets => exact hgets

theorem Phase.answers_eq (h : Phase w₀ e name w answers gets)
    : ∃ target, ∀ answer ∈ answers, answer = .ok (.entity target) := by
  cases h with
  | known _ _ hanswers _ => exact ⟨_, hanswers⟩
  | _ => exact ⟨none, by simp⟩

/-- A caller hears what the link knows. -/
theorem Shared.hear (h : Shared w₀ e name w answers gets) {target : Option EntityRef}
    (hlink : (w.entity e).links.get? name = some (.resolved target))
    : Shared w₀ e name w (answers ++ [.ok (.entity target)]) gets :=
  { h with phase := fun hunfailed => (h.phase hunfailed).hear hlink }

/-- A caller hears the result of a load that is over. -/
theorem Shared.hearResult (h : Shared w₀ e name w answers gets) (hw : w.Coherent)
    (he : e < w₀.entities.size) (hload : LoadSince w₀ e name w l (.settled result))
    : Shared w₀ e name w (answers ++ [result.map .entity]) gets := by
  refine { h with phase := ?_ }
  intro hunfailed
  cases h.phase hunfailed with
  | unknown _ _ hnone => exact absurd hload (hnone l _)
  | underWay hloading honly _ =>
    cases honly l _ hload
    obtain ⟨load, deadline, hload', _, hunder, _⟩ := h.loadSince hw he hloading
    obtain ⟨_, load', hload'', _, _, hsettled⟩ := hload
    rw [hload'] at hload''
    cases hload''
    rw [hunder] at hsettled
    cases hsettled
  | known hknown hsettled _ _ =>
    cases hsettled l _ hload
    exact (h.phase hunfailed).hear hknown

/-- The relationship points at nothing, and this is entered into the link. -/
theorem Shared.hearNothing (h : Shared w₀ e name w answers gets) (hw : w.Coherent)
    (he : e < w₀.entities.size) (hlink : (w.entity e).links.get? name = none)
    (hid : (w.entity e).foreignId? name = none)
    : Shared w₀ e name (w.modifyEntity e fun x => x.setLink name (.resolved none))
        (answers ++ [.ok (.entity none)]) gets := by
  have hlinked : ((w.modifyEntity e fun x => x.setLink name (.resolved none)).entity e).links.get? name
      = some (.resolved none) := by
    rw [w.entity_modifyEntity _ _ _ (h.lt he), if_pos rfl]
    simp [Entity.setLink]
  have hloads : ∀ l state,
      LoadSince w₀ e name (w.modifyEntity e fun x => x.setLink name (.resolved none)) l state →
        LoadSince w₀ e name w l state := fun _ _ hload => ⟨hload.since, hload.load⟩
  constructor
  . have hentered : Evolves nowhere (fun _ _ => True) w
        (w.modifyEntity e fun x => x.setLink name (.resolved none)) := hw.linkNothing trivial
    exact h.frame.trans (hentered.toFrame.mono nowhere_le fun _ _ => id)
  . intro l deadline hload
    have hloading := h.waited l deadline (hloads l _ hload)
    rw [hlink] at hloading
    cases hloading
  . intro hgets hbefore hid₀
    rw [← h.foreignId? he, hid] at hid₀
    exact absurd rfl hid₀
  . intro hunfailed
    have hphase := h.phase (hunfailed.of_imp fun l result hload => ⟨hload.since, hload.load⟩)
    obtain ⟨rfl, rfl, _, hnone⟩ := hphase.of_none hlink
    apply Phase.known hlinked _ (by simp) (.inl rfl)
    exact fun l state hload => absurd (hloads l state hload) (hnone l state)

theorem link_sendLoad (he : e < w.entities.size) (name foreignType : String) (load : Load)
    : ((w.sendLoad e name foreignType load).entity e).links.get? name
        =
      some (.loading w.loads.size) :=
  link_beginLoad_self he name load

/-- A load begins, and the call for it is sent. -/
theorem Shared.sendLoad (h : Shared w₀ e name w answers gets) (hw : w.Coherent)
    (he : e < w₀.entities.size) {r : Relationship}
    (hr : (w.entity e).objectType.belongsTo? name = some r)
    (hlink : (w.entity e).links.get? name = none)
    (hserves : load.Serves e (w.entity e) name) (hstore : load.store.schema.WellNamed)
    : Shared w₀ e name (w.sendLoad e name r.foreignType load) answers
        (.get r.foreignType load.id :: gets) := by
  have hsent : Evolves nowhere (fun _ _ => True) w (w.sendLoad e name r.foreignType load) :=
    hw.sendLoad (h.lt he) hserves hstore trivial r.foreignType
  have hlinked := link_sendLoad (h.lt he) name r.foreignType load
  have hloads : ∀ l state, LoadSince w₀ e name (w.sendLoad e name r.foreignType load) l state →
      LoadSince w₀ e name w l state ∨ l = w.loads.size := by
    rintro l state ⟨hsince, load', hload', hrest⟩
    change (w.beginLoad e name load).load? l = some load' at hload'
    rcases load?_beginLoad_cases hload' with hload' | ⟨hl, _⟩
    . exact .inl ⟨hsince, load', hload', hrest⟩
    . exact .inr hl
  constructor
  . exact h.frame.trans (hsent.toFrame.mono nowhere_le fun _ _ => id)
  . intro l deadline hload
    rw [hlinked]
    rcases hloads l _ hload with hload | rfl
    . have hloading := h.waited l deadline hload
      rw [hlink] at hloading
      cases hloading
    . rfl
  . exact nofun
  . intro hunfailed
    have hunfailed' : Unfailed w₀ e name w := by
      apply hunfailed.of_imp
      rintro l result ⟨hsince, load', hload', hrest⟩
      refine ⟨hsince, load', ?_, hrest⟩
      exact (load?_beginLoad_of_lt (lt_of_load? hload') e name load).trans hload'
    obtain ⟨rfl, rfl, hbefore, hnone⟩ := (h.phase hunfailed').of_none hlink
    apply Phase.underWay hlinked
    . intro l state hload
      exact (hloads l state hload).resolve_left (hnone l state)
    . have hidentity := h.frame.identity e he
      rw [hidentity.objectType] at hr
      exact .inr ⟨hbefore, r, load.id, hr, (h.foreignId? he).symm.trans hserves.foreignId, rfl⟩

/-- One load gets its result, and the others go on as before. -/
theorem loadSince_pollLoad_iff (hdue : w.Due l load)
    (hload : LoadSince w₀ e name w l load.state) (l' : LoadRef) (state : LoadState)
    : LoadSince w₀ e name (w.pollLoad l) l' state
        ↔
      if l' = l then state = .settled (w.fetchLoad load).1 else LoadSince w₀ e name w l' state := by
  have hafter := load?_pollLoad_of_due hdue l'
  by_cases hl : l' = l
  . obtain ⟨hsince, load', hload', howner, hrelation, _⟩ := hload
    rw [hdue.1] at hload'
    cases hload'
    rw [if_pos hl] at hafter ⊢
    subst hl
    constructor
    . rintro ⟨_, load', hload', _, _, rfl⟩
      rw [hafter] at hload'
      cases hload'
      rfl
    . rintro rfl
      exact ⟨hsince, _, hafter, howner, hrelation, rfl⟩
  . rw [if_neg hl] at hafter ⊢
    constructor
    . rintro ⟨hsince, load', hload', hrest⟩
      exact ⟨hsince, load', hafter ▸ hload', hrest⟩
    . rintro ⟨hsince, load', hload', hrest⟩
      exact ⟨hsince, load', hafter.trans hload', hrest⟩

/-- The load that the link waits for gets its result. -/
theorem Shared.settle (h : Shared w₀ e name w answers gets) (hw : w.Coherent)
    (he : e < w₀.entities.size) (hlink : (w.entity e).links.get? name = some (.loading l))
    (hdue : w.Due l load)
    : Shared w₀ e name (w.pollLoad l) (answers ++ [(w.fetchLoad load).1.map .entity]) gets := by
  obtain ⟨load', deadline, hwaiting, hserves, hunder, hsince⟩ := h.loadSince hw he hlink
  have hload := hdue.1
  rw [hwaiting] at hload
  cases hload
  rw [← hunder] at hsince
  have hpolled : Evolves nowhere (fun _ _ => True) w (w.pollLoad l) :=
    hw.pollLoad fun _ _ _ => trivial
  have hlinked : ((w.pollLoad l).entity e).links.get? name
      = (w.fetchLoad load).1.toOption.map Link.resolved := by
    rw [← hserves.owner, ← hserves.relation] at hlink ⊢
    exact hw.link_pollLoad_of_due hdue hlink
  have hloads := loadSince_pollLoad_iff hdue hsince
  constructor
  . exact h.frame.trans (hpolled.toFrame.mono nowhere_le fun _ _ => id)
  . intro l' deadline' hwaits
    rw [hloads] at hwaits
    split at hwaits
    . cases hwaits
    . next hne =>
      have hloading := h.waited l' deadline' hwaits
      rw [hlink] at hloading
      cases hloading
      exact absurd rfl hne
  . intro hgets hbefore hid
    have hunknown := h.idle hgets hbefore hid
    rw [hlink] at hunknown
    cases hunknown
  . intro hunfailed
    have hunfailed' : Unfailed w₀ e name w := by
      apply hunfailed.of_imp
      intro l' result hsettled
      rw [hloads, if_neg]
      . exact hsettled
      . rintro rfl
        obtain ⟨_, load', hload', _, _, hstate⟩ := hsettled
        rw [hwaiting] at hload'
        cases hload'
        rw [hunder] at hstate
        cases hstate
    cases hresult : (w.fetchLoad load).1 with
    | error err =>
      refine absurd ((hloads l _).2 ?_) (hunfailed l err)
      rw [if_pos rfl, hresult]
    | ok target =>
      rw [hresult] at hlinked hloads
      obtain ⟨rfl, hgets, honly⟩ := (h.phase hunfailed').of_loading hlink
      apply Phase.known hlinked _ _ hgets
      . intro l' state hload'
        rw [hloads] at hload'
        split at hload'
        . exact hload'
        . next hne => exact absurd (honly l' state hload') hne
      . intro answer hanswer
        rw [List.nil_append, List.mem_singleton] at hanswer
        exact hanswer

/-- A caller waits for the load that the link waits for. -/
theorem Shared.join (h : Shared w₀ e name w answers gets) (hw : w.Coherent)
    (he : e < w₀.entities.size) (hlink : (w.entity e).links.get? name = some (.loading l))
    : Shared w₀ e name (w.pollJoining l).2 (answers ++ (w.pollJoining l).1.answers) gets := by
  obtain ⟨load, deadline, hload, _, hunder, _⟩ := h.loadSince hw he hlink
  by_cases hle : deadline ≤ w.clock
  . have hdue : w.Due l load := ⟨hload, deadline, hle, hunder⟩
    rw [pollJoining_of_due hdue]
    exact h.settle hw he hlink hdue
  . rw [pollJoining_of_lt hload hunder (Nat.not_le.1 hle)]
    unfold Task.answers
    rw [List.append_nil]
    exact h

theorem pollLoad_pollLoad (w : World) (l : LoadRef) : (w.pollLoad l).pollLoad l = w.pollLoad l := by
  by_cases hdue : ∃ load, w.Due l load
  . obtain ⟨load, hdue⟩ := hdue
    exact pollLoad_of_result (loadResult?_pollLoad_of_due hdue)
  . have hsame := pollLoad_of_not_due (not_exists.1 hdue)
    rw [hsame, hsame]

theorem pollJoining_pollLoad (w : World) (l : LoadRef)
    : (w.pollLoad l).pollJoining l = w.pollJoining l := by
  unfold pollJoining
  rw [pollLoad_pollLoad]

theorem start_related_of_loading {r : Relationship}
    (hr : (w.entity e).objectType.belongsTo? name = some r)
    (hlink : (w.entity e).links.get? name = some (.loading l))
    : w.start (.related e name) = w.pollJoining l := by
  unfold World.start World.askRelated
  dsimp only
  rw [Entity.relationship_eq_ok.2 hr, hlink]

theorem start_related_of_resolved {r : Relationship} {target : Option EntityRef}
    (hr : (w.entity e).objectType.belongsTo? name = some r)
    (hlink : (w.entity e).links.get? name = some (.resolved target))
    : w.start (.related e name) = (.finished (.ok (.entity target)), w) := by
  unfold World.start World.askRelated
  dsimp only
  rw [Entity.relationship_eq_ok.2 hr, hlink]

theorem start_related_of_nothing {r : Relationship}
    (hr : (w.entity e).objectType.belongsTo? name = some r)
    (hlink : (w.entity e).links.get? name = none) (hid : (w.entity e).foreignId? name = none)
    : w.start (.related e name)
        =
      (.finished (.ok (.entity none)),
        w.modifyEntity e fun x => x.setLink name (.resolved none)) := by
  unfold World.start World.askRelated
  dsimp only
  rw [Entity.relationship_eq_ok.2 hr, hlink, hid]

theorem start_related_of_unknown {r : Relationship} {id : String} {objectType : ObjectType}
    (hr : (w.entity e).objectType.belongsTo? name = some r)
    (hlink : (w.entity e).links.get? name = none) (hid : (w.entity e).foreignId? name = some id)
    (htype : (w.entity e).store.objectType r.foreignType = .ok objectType)
    : ∃ deadline, w.start (.related e name)
        =
      (w.sendLoad e name r.foreignType
        ⟨e, name, (w.entity e).store, objectType, id, .underWay deadline⟩).pollJoining
          w.loads.size := by
  obtain ⟨deadline, hstart⟩ := startLoad_of_ok name id htype
  refine ⟨deadline, ?_⟩
  rw [← pollJoining_pollLoad]
  unfold World.start World.askRelated
  dsimp only
  rw [Entity.relationship_eq_ok.2 hr, hlink, hid]
  dsimp only
  rw [hstart]

/-- Somebody asks for the object. -/
theorem Shared.ask (h : Shared w₀ e name w answers gets) (hw : w.Coherent) (he : e < w₀.entities.size)
    {r : Relationship} {objectType : ObjectType}
    (hr : (w.entity e).objectType.belongsTo? name = some r)
    (htype : (w.entity e).store.objectType r.foreignType = .ok objectType)
    (ha : (w.entity e).store.adapter < w.adapters.size)
    : Shared w₀ e name (w.start (.related e name)).2
        (answers ++ (w.start (.related e name)).1.answers)
        (w.newCalls (w.start (.related e name)).2 (w.entity e).store.adapter ++ gets) := by
  have he' := h.lt he
  cases hlink : (w.entity e).links.get? name with
  | none =>
    cases hid : (w.entity e).foreignId? name with
    | none =>
      rw [start_related_of_nothing hr hlink hid, newCalls_of_adapters_eq]
      . exact h.hearNothing hw he hlink hid
      . rfl
    | some id =>
      obtain ⟨deadline, hstart⟩ := start_related_of_unknown hr hlink hid htype
      have hserves := serves_of_objectType hw he' hr hid htype deadline
      rw [hstart, newCalls_of_noteCall ha]
      . have hsent := h.sendLoad hw he hr hlink hserves (hw.wellNamed e he')
        apply hsent.join _ he (link_sendLoad he' ..)
        have hevolves : Evolves nowhere (fun _ _ => True) w (w.sendLoad e name r.foreignType _) :=
          hw.sendLoad he' hserves (hw.wellNamed e he') trivial r.foreignType
        exact hevolves.coherent
      . rw [pollJoining_world, adapters_pollLoad]
        rfl
  | some link =>
    cases link with
    | loading l =>
      rw [start_related_of_loading hr hlink, newCalls_of_adapters_eq]
      . exact h.join hw he hlink
      . rw [pollJoining_world, adapters_pollLoad]
    | resolved target =>
      rw [start_related_of_resolved hr hlink, newCalls_of_adapters_eq]
      . exact h.hear hlink
      . rfl

/-- Somebody goes on to wait for a load, whether it has come to its end or not. -/
theorem Shared.wait (h : Shared w₀ e name w answers gets) (hw : w.Coherent)
    (he : e < w₀.entities.size) (hload : LoadSince w₀ e name w l state)
    : Shared w₀ e name (w.pollJoining l).2 (answers ++ (w.pollJoining l).1.answers) gets := by
  cases state with
  | underWay deadline => exact h.join hw he (h.waited l deadline hload)
  | settled result =>
    rw [pollJoining_of_result hload.loadResult?]
    exact h.hearResult hw he hload

/-- The load that a link waited for got its result. -/
structure Settles (e : EntityRef) (name : String) (w : World) (out : Task × World) (l : LoadRef)
    (result : Except StoreError (Option EntityRef)) : Prop where
  finished : out.1 = .finished (result.map .entity)
  loadResult : out.2.loadResult? l = some result
  others : ∀ l', l' ≠ l → out.2.loadResult? l' = w.loadResult? l'
  link : (out.2.entity e).links.get? name = result.toOption.map Link.resolved
  foreignId : (w.entity e).foreignId? name ≠ none

theorem Coherent.pollJoining_settles (h : w.Coherent) (he : e < w.entities.size)
    (hlink : (w.entity e).links.get? name = some (.loading l))
    : (∀ l', (w.pollJoining l).2.loadResult? l' = w.loadResult? l')
        ∨
      ∃ result, Settles e name w (w.pollJoining l) l result := by
  obtain ⟨load, hload, hserves⟩ := (h.links e he name).loading l hlink
  obtain ⟨deadline, hunder⟩ := hserves.underWay
  by_cases hle : deadline ≤ w.clock
  . have hdue : w.Due l load := ⟨hload, deadline, hle, hunder⟩
    refine .inr ⟨(w.fetchLoad load).1, ?_⟩
    rw [pollJoining_of_due hdue]
    refine ⟨rfl, loadResult?_pollLoad_of_due hdue, ?_, ?_, ?_⟩
    . intro l' hne
      unfold loadResult?
      rw [load?_pollLoad_of_due hdue, if_neg hne]
    . rw [← hserves.owner, ← hserves.relation] at hlink ⊢
      exact h.link_pollLoad_of_due hdue hlink
    . rw [hserves.foreignId]
      exact Option.some_ne_none _
  . left
    rw [pollJoining_of_lt hload hunder (Nat.not_le.1 hle)]
    exact fun _ => rfl

theorem loadResult?_sendLoad (hserves : load.Serves e x name) (foreignType : String) (l : LoadRef)
    : (w.sendLoad e name foreignType load).loadResult? l = w.loadResult? l := by
  have hload : (w.sendLoad e name foreignType load).load? l = (w.beginLoad e name load).load? l := rfl
  by_cases hl : l < w.loads.size
  . unfold loadResult?
    rw [hload, load?_beginLoad_of_lt hl]
  . have hnone : w.load? l = none := Array.getElem?_eq_none (Nat.not_lt.1 hl)
    unfold loadResult?
    rw [hload, hnone]
    cases hbegun : (w.beginLoad e name load).load? l with
    | none => rfl
    | some load' =>
      rcases load?_beginLoad_cases hbegun with hbefore | ⟨_, rfl⟩
      . rw [hnone] at hbefore
        cases hbefore
      . obtain ⟨deadline, hunder⟩ := hserves.underWay
        dsimp only
        rw [hunder]

theorem Coherent.ask_settles (h : w.Coherent) (he : e < w.entities.size)
    {r : Relationship} {objectType : ObjectType}
    (hr : (w.entity e).objectType.belongsTo? name = some r)
    (htype : (w.entity e).store.objectType r.foreignType = .ok objectType)
    : (∀ l, (w.start (.related e name)).2.loadResult? l = w.loadResult? l)
        ∨
      ∃ l result, Settles e name w (w.start (.related e name)) l result := by
  cases hlink : (w.entity e).links.get? name with
  | none =>
    cases hid : (w.entity e).foreignId? name with
    | none =>
      left
      rw [start_related_of_nothing hr hlink hid]
      exact fun _ => rfl
    | some id =>
      obtain ⟨deadline, hstart⟩ := start_related_of_unknown hr hlink hid htype
      have hserves := serves_of_objectType h he hr hid htype deadline
      have hsent : Evolves nowhere (fun _ _ => True) w (w.sendLoad e name r.foreignType _) :=
        h.sendLoad he hserves (h.wellNamed e he) trivial r.foreignType
      have hsame := loadResult?_sendLoad (w := w) hserves r.foreignType
      rw [hstart]
      rcases hsent.coherent.pollJoining_settles (Nat.lt_of_lt_of_le he hsent.entities_le)
        (link_sendLoad he ..) with hnone | ⟨result, hsettles⟩
      . left
        intro l
        rw [hnone, hsame]
      . refine .inr ⟨w.loads.size, result, hsettles.finished, hsettles.loadResult, ?_, hsettles.link,
          ?_⟩
        . intro l' hne
          rw [hsettles.others l' hne, hsame]
        . rw [hid]
          exact Option.some_ne_none _
  | some link =>
    cases link with
    | loading l =>
      rw [start_related_of_loading hr hlink]
      exact (h.pollJoining_settles he hlink).imp_right fun hsettles => ⟨l, hsettles⟩
    | resolved target =>
      left
      rw [start_related_of_resolved hr hlink]
      exact fun _ => rfl

theorem Settles.of_new {out : Task × World}
    (h : (∀ l, out.2.loadResult? l = w.loadResult? l) ∨ ∃ l result, Settles e name w out l result)
    (hbefore : w.loadResult? l = none) (hafter : out.2.loadResult? l = some result)
    : Settles e name w out l result := by
  rcases h with hsame | ⟨l', result', hsettles⟩
  . rw [hsame, hbefore] at hafter
    cases hafter
  . by_cases hl : l = l'
    . subst hl
      cases hsettles.loadResult.symm.trans hafter
      exact hsettles
    . rw [hsettles.others l hl, hbefore] at hafter
      cases hafter

end World

end ObjectStore
