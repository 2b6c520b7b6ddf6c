import Lodestar.Cache.Mapping

/-!
# The cache and the two informer streams

The cache mapping against the latest objects.  `Mirror` has the store together with the latest pod
and the latest adapter of every name; each stream delivers the history of its own objects in order
(`Lawful`), and the two streams are merged in any way.  A pod is to be listed for the models that the
latest objects give it (`Agrees`).

The handlers are not confluent.  The handler of a pod stores it with its base model only, also where
an adapter names it: the adapter's handler has skipped the pod, or the pod's update drops the pairs
of the adapters.  The handler of an adapter takes the pair with a pod away whatever the label of the
pod is.  And an update of a pod that was a worker is ignored.  `agrees_run_iff` says that this is all
that can go wrong.
-/

namespace Lodestar.Cache

/-- The cache, and the latest objects that the informers have delivered. -/
structure Mirror where
  store : Store := {}
  pods : String → Option PodObject := fun _ => none
  adapters : String → Option Store.ModelAdapter := fun _ => none

namespace Mirror

variable (s : Mirror)

/-- The base model of the latest version of a pod, if it has the label and is not a worker. -/
def serves (podName : String) : Option String := (s.pods podName).bind PodObject.serves

def instances (modelName : String) : List String :=
  ((s.adapters modelName).map Store.ModelAdapter.instances).getD []

/-- The event continues the history of its object.  The last known version in a tombstone may be an
old one. -/
def Lawful : Notice → Prop
  | .addPod pod => s.pods pod.name = none
  | .updatePod oldPod newPod => s.pods oldPod.name = some oldPod ∧ newPod.name = oldPod.name
  | .deletePod obj => (obj.name.bind s.pods).isSome
  | .addModelAdapter model => s.adapters model.name = none
  | .updateModelAdapter oldModel newModel =>
    s.adapters oldModel.name = some oldModel ∧ newModel.name = oldModel.name
  | .deleteModelAdapter none => False
  | .deleteModelAdapter (some model) => s.adapters model.name = some model

instance : ∀ notice, Decidable (s.Lawful notice)
  | .addPod pod => inferInstanceAs (Decidable (s.pods pod.name = none))
  | .updatePod oldPod newPod =>
    inferInstanceAs (Decidable (s.pods oldPod.name = some oldPod ∧ newPod.name = oldPod.name))
  | .deletePod obj => inferInstanceAs (Decidable ((obj.name.bind s.pods).isSome = true))
  | .addModelAdapter model => inferInstanceAs (Decidable (s.adapters model.name = none))
  | .updateModelAdapter oldModel newModel => inferInstanceAs (Decidable
      (s.adapters oldModel.name = some oldModel ∧ newModel.name = oldModel.name))
  | .deleteModelAdapter none => inferInstanceAs (Decidable False)
  | .deleteModelAdapter (some model) =>
    inferInstanceAs (Decidable (s.adapters model.name = some model))

def nextPods : Notice → String → Option PodObject
  | .addPod pod => Function.update s.pods pod.name (some pod)
  | .updatePod _ newPod => Function.update s.pods newPod.name (some newPod)
  | .deletePod obj =>
    match obj.name with
    | none => s.pods
    | some name => Function.update s.pods name none
  | _ => s.pods

def nextAdapters : Notice → String → Option Store.ModelAdapter
  | .addModelAdapter model => Function.update s.adapters model.name (some model)
  | .updateModelAdapter _ newModel => Function.update s.adapters newModel.name (some newModel)
  | .deleteModelAdapter (some model) => Function.update s.adapters model.name none
  | _ => s.adapters

/-- An event and its handler; an event that cannot come changes nothing. -/
def step (notice : Notice) : Mirror :=
  if s.Lawful notice then
    { store := s.store.notify notice
      pods := s.nextPods notice
      adapters := s.nextAdapters notice }
  else s

def run (es : List Notice) : Mirror := es.foldl step {}

def Lists (podName modelName : String) : Prop := (podName, modelName) ∈ s.store.mapping.lists

/-- **The cache is a function of the latest objects**: a pod is listed for a base model exactly when
its latest version has the label and is not a worker, and for an adapter exactly when it is tracked
and in the latest status of the adapter. -/
def Agrees : Prop :=
  ∀ p m, s.Lists p m ↔ s.serves p = some m ∨ (s.serves p).isSome ∧ p ∈ s.instances m

/-- The event finds the other stream in a state that its handler can cope with. -/
def Confluent : Notice → Prop
  | .addPod pod => ∀ l, pod.serves = some l → ∀ m, pod.name ∈ s.instances m → m = l
  | .updatePod oldPod newPod => ∀ l, newPod.serves = some l →
      oldPod.isWorker = false ∧ ∀ m, newPod.name ∈ s.instances m → m = l
  | .deletePod _ => True
  | .addModelAdapter _ => True
  | .updateModelAdapter oldModel newModel =>
    ∀ p ∈ oldModel.instances, p ∉ newModel.instances → s.serves p ≠ some oldModel.name
  | .deleteModelAdapter none => True
  | .deleteModelAdapter (some model) => ∀ p ∈ model.instances, s.serves p ≠ some model.name

/-- What every run keeps: the two maps have the same pairs, and only pods that are to be tracked
are. -/
structure WF : Prop where
  symmetric : s.store.Symmetric
  tracked : ∀ p ∈ s.store.mapping.tracked, (s.serves p).isSome

variable {s}

lemma wf_new : WF {} where
  symmetric := Store.symmetric_new
  tracked p hp := by simp [Store.mapping] at hp

lemma WF.tracked_iff (h : WF s) (ha : Agrees s) (p : String) :
    p ∈ s.store.mapping.tracked ↔ (s.serves p).isSome := by
  refine ⟨h.tracked p, fun hp => ?_⟩
  obtain ⟨m, hm⟩ := Option.isSome_iff_exists.mp hp
  have hlists : (p, m) ∈ s.store.mapping.lists := (ha p m).mpr (.inl hm)
  rw [← h.symmetric.has] at hlists
  obtain ⟨record, hrecord, _⟩ := Store.mem_has.mp hlists
  exact Store.mem_tracked.mpr ⟨record, hrecord⟩

variable {notice : Notice}

lemma step_of_lawful (h : s.Lawful notice) : s.step notice =
    { store := s.store.notify notice, pods := s.nextPods notice, adapters := s.nextAdapters notice } :=
  if_pos h

lemma lists_step (h : WF s) (hl : s.Lawful notice) {p m : String} :
    (s.step notice).Lists p m ↔ (p, m) ∈ (s.store.mapping.handle notice).lists := by
  rw [step_of_lawful hl, ← (h.symmetric.notify notice).2]
  exact .rfl

lemma serves_step (hl : s.Lawful notice) (q : String) (pod : Option PodObject)
    (hpods : s.nextPods notice = Function.update s.pods q pod) (p : String) :
    (s.step notice).serves p = if p = q then pod.bind PodObject.serves else s.serves p := by
  rw [step_of_lawful hl]
  show (s.nextPods notice p).bind PodObject.serves = _
  rw [hpods]
  by_cases hp : p = q
  · subst hp
    simp
  · simp [hp, Mirror.serves]

attribute [local simp] Mirror.instances

lemma instances_step (hl : s.Lawful notice) (n : String) (model : Option Store.ModelAdapter)
    (hadapters : s.nextAdapters notice = Function.update s.adapters n model) (m : String) :
    (s.step notice).instances m =
      if m = n then (model.map Store.ModelAdapter.instances).getD [] else s.instances m := by
  rw [step_of_lawful hl]
  show ((s.nextAdapters notice m).map Store.ModelAdapter.instances).getD [] = _
  rw [hadapters]
  by_cases hm : m = n
  · subst hm
    simp
  · simp [hm]

lemma instances_step_same (hsame : s.nextAdapters notice = s.adapters) (m : String) :
    (s.step notice).instances m = s.instances m := by
  unfold Mirror.step
  split
  · rw [hsame]
    rfl
  · rfl

lemma serves_step_same (hsame : s.nextPods notice = s.pods) (p : String) :
    (s.step notice).serves p = s.serves p := by
  unfold Mirror.step
  split
  · rw [hsame]
    rfl
  · rfl

lemma serves_eq_none {p : String} (h : s.pods p = none) : s.serves p = none := by
  simp [Mirror.serves, h]

lemma nextPods_deletePod {obj : Store.Deleted} {name : String} (h : obj.name = some name) :
    s.nextPods (.deletePod obj) = Function.update s.pods name none := by
  simp [nextPods, h]

lemma WF.step (h : WF s) (notice : Notice) : WF (s.step notice) := by
  by_cases hl : s.Lawful notice
  · obtain ⟨hsymm, hmap⟩ := h.symmetric.notify notice
    have hstore : (s.step notice).store = s.store.notify notice := by rw [step_of_lawful hl]
    refine ⟨hstore ▸ hsymm, fun p hp => ?_⟩
    rw [hstore, hmap] at hp
    cases notice with
    | addPod pod =>
      rw [serves_step hl pod.name (some pod) rfl]
      rcases (Mapping.mem_tracked_linkIf _ _).mp hp with hp | ⟨rfl, hs⟩
      · have hserves := h.tracked p hp
        split
        · rename_i hname
          rw [hname, serves_eq_none hl] at hserves
          cases hserves
        · exact hserves
      · simpa using hs
    | updatePod oldPod newPod =>
      rw [serves_step hl newPod.name (some newPod) rfl]
      rcases (Mapping.mem_tracked_linkIf _ _).mp hp with hp | ⟨rfl, hs⟩
      · obtain ⟨hp, hne⟩ := (Mapping.mem_tracked_drop _).mp hp
        rw [if_neg (hl.2 ▸ hne)]
        exact h.tracked p hp
      · cases hw : oldPod.isWorker <;> simp_all
    | deletePod obj =>
      cases hname : obj.name with
      | none => simp [Lawful, hname] at hl
      | some name =>
        rw [Mapping.handle, hname] at hp
        obtain ⟨hp, hne⟩ := (Mapping.mem_tracked_drop _).mp hp
        rw [serves_step hl name none (nextPods_deletePod hname), if_neg hne]
        exact h.tracked p hp
    | addModelAdapter | updateModelAdapter =>
      rw [serves_step_same rfl]
      exact h.tracked p hp
    | deleteModelAdapter model =>
      rw [serves_step_same rfl]
      cases model <;> exact h.tracked p hp
  · rw [Mirror.step, if_neg hl]
    exact h

/-! ### One event -/

variable {s' : Mirror}

lemma agrees_iff_of_pod (ha : Agrees s) (q : String)
    (hlists : ∀ p ≠ q, ∀ m, s'.Lists p m ↔ s.Lists p m) (hserves : ∀ p ≠ q, s'.serves p = s.serves p)
    (hinst : ∀ m, s'.instances m = s.instances m) : Agrees s' ↔
      ∀ m, s'.Lists q m ↔ s'.serves q = some m ∨ (s'.serves q).isSome ∧ q ∈ s.instances m := by
  constructor
  · intro h m
    rw [h q m, hinst]
  · intro h p m
    rw [hinst]
    by_cases hp : p = q
    · subst hp
      exact h m
    · rw [hlists p hp, hserves p hp]
      exact ha p m

lemma agrees_iff_of_adapter (ha : Agrees s) (n : String)
    (hlists : ∀ m ≠ n, ∀ p, s'.Lists p m ↔ s.Lists p m) (hserves : ∀ p, s'.serves p = s.serves p)
    (hinst : ∀ m ≠ n, s'.instances m = s.instances m) : Agrees s' ↔
      ∀ p, s'.Lists p n ↔ s.serves p = some n ∨ (s.serves p).isSome ∧ p ∈ s'.instances n := by
  constructor
  · intro h p
    rw [h p n, hserves]
  · intro h p m
    rw [hserves]
    by_cases hm : m = n
    · subst hm
      exact h p
    · rw [hlists m hm, hinst m hm]
      exact ha p m

lemma base_only_iff {o : Option String} {P : String → Prop} :
    (∀ m, o = some m ↔ o = some m ∨ o.isSome ∧ P m) ↔ ∀ l, o = some l → ∀ m, P m → m = l := by
  cases o with
  | none => simp
  | some l =>
    constructor
    · intro h l' hl m hm
      have hlm := (h m).mpr (.inr ⟨rfl, hm⟩)
      rw [hl] at hlm
      exact (Option.some.inj hlm).symm
    · intro h m
      refine ⟨.inl, ?_⟩
      rintro (heq | ⟨_, hm⟩)
      · exact heq
      · rw [h l rfl m hm]

section

variable (h : WF s) (ha : Agrees s)
include h ha

lemma agrees_addPod {pod : PodObject} (hl : s.Lawful (.addPod pod)) :
    Agrees (s.step (.addPod pod)) ↔ s.Confluent (.addPod pod) := by
  have hlists : ∀ p m, (s.step (.addPod pod)).Lists p m ↔
      s.Lists p m ∨ p = pod.name ∧ pod.serves = some m :=
    fun p m => (lists_step h hl).trans (Mapping.mem_lists_linkIf _ _)
  have hserves := serves_step hl pod.name (some pod) rfl
  have hbefore : ∀ m, ¬ s.Lists pod.name m := by
    intro m
    rw [ha, serves_eq_none hl]
    simp
  rw [agrees_iff_of_pod ha pod.name]
  · show _ ↔ ∀ l, pod.serves = some l → ∀ m, pod.name ∈ s.instances m → m = l
    rw [← base_only_iff]
    refine forall_congr' fun m => ?_
    rw [hlists, hserves]
    simp [hbefore]
  · intro p hp m
    rw [hlists]
    simp [hp]
  · exact fun p hp => (hserves p).trans (if_neg hp)
  · exact instances_step_same rfl

lemma agrees_updatePod {oldPod newPod : PodObject}
    (hl : s.Lawful (.updatePod oldPod newPod)) :
    Agrees (s.step (.updatePod oldPod newPod)) ↔ s.Confluent (.updatePod oldPod newPod) := by
  have hlists : ∀ p m, (s.step (.updatePod oldPod newPod)).Lists p m ↔
      (s.Lists p m ∧ p ≠ newPod.name) ∨
        p = newPod.name ∧ (if oldPod.isWorker then none else newPod.serves) = some m := by
    intro p m
    rw [lists_step h hl]
    exact (Mapping.mem_lists_linkIf _ _).trans (by rw [hl.2]; rfl)
  have hserves := serves_step hl newPod.name (some newPod) rfl
  rw [agrees_iff_of_pod ha newPod.name]
  · show _ ↔ ∀ l, newPod.serves = some l → _
    have hafter : (∀ m, (s.step (.updatePod oldPod newPod)).Lists newPod.name m ↔
          (s.step (.updatePod oldPod newPod)).serves newPod.name = some m ∨
            ((s.step (.updatePod oldPod newPod)).serves newPod.name).isSome ∧
              newPod.name ∈ s.instances m) ↔
        ∀ m, (if oldPod.isWorker then none else newPod.serves) = some m ↔
          newPod.serves = some m ∨ newPod.serves.isSome ∧ newPod.name ∈ s.instances m := by
      refine forall_congr' fun m => ?_
      rw [hlists, hserves]
      simp
    rw [hafter]
    cases hw : oldPod.isWorker with
    | true =>
      -- the handler of a former worker stores nothing
      cases hs : newPod.serves with
      | none => simp
      | some l =>
        refine iff_of_false (fun hall => ?_) fun hall => ?_
        · simpa using hall l
        · simpa using (hall l rfl).1
    | false => simpa using base_only_iff
  · intro p hp m
    rw [hlists]
    simp [hp]
  · exact fun p hp => (hserves p).trans (if_neg hp)
  · exact instances_step_same rfl

lemma agrees_deletePod {obj : Store.Deleted}
    (hl : s.Lawful (.deletePod obj)) : Agrees (s.step (.deletePod obj)) := by
  cases hname : obj.name with
  | none => simp [Lawful, hname] at hl
  | some name =>
    have hlists : ∀ p m, (s.step (.deletePod obj)).Lists p m ↔ s.Lists p m ∧ p ≠ name := by
      intro p m
      rw [lists_step h hl, Mapping.handle, hname]
      exact Mapping.mem_lists_drop _
    have hserves := serves_step hl name none (nextPods_deletePod hname)
    apply (agrees_iff_of_pod ha name _ _ _).mpr
    · intro m
      rw [hlists, hserves]
      simp
    · intro p hp m
      rw [hlists]
      simp [hp]
    · exact fun p hp => (hserves p).trans (if_neg hp)
    · exact instances_step_same rfl

lemma agrees_addModelAdapter {model : Store.ModelAdapter}
    (hl : s.Lawful (.addModelAdapter model)) : Agrees (s.step (.addModelAdapter model)) := by
  have hlists : ∀ p m, (s.step (.addModelAdapter model)).Lists p m ↔
      s.Lists p m ∨ m = model.name ∧ p ∈ model.instances ∧ (s.serves p).isSome := by
    intro p m
    rw [lists_step h hl, ← h.tracked_iff ha]
    exact Mapping.mem_lists_linkAll _ _
  have hinst := instances_step hl model.name (some model) rfl
  have hbefore : s.instances model.name = [] := by
    change s.adapters model.name = none at hl
    simp [hl]
  apply (agrees_iff_of_adapter ha model.name _ (serves_step_same rfl) _).mpr
  · intro p
    rw [hlists, hinst, ha p model.name, hbefore]
    simp [and_comm]
  · intro m hm p
    rw [hlists]
    simp [hm]
  · exact fun m hm => (hinst m).trans (if_neg hm)

end

lemma unlink_iff {o : Option String} {n : String} {P Q : Prop} :
    ((o = some n ∨ o.isSome ∧ P) ∧ ¬ P ∨ o.isSome ∧ Q ↔ o = some n ∨ o.isSome ∧ Q) ↔
      (P → ¬ Q → o ≠ some n) := by
  cases o with
  | none => simp
  | some l => grind

lemma agrees_updateModelAdapter (h : WF s) (ha : Agrees s) {oldModel newModel : Store.ModelAdapter}
    (hl : s.Lawful (.updateModelAdapter oldModel newModel)) :
    Agrees (s.step (.updateModelAdapter oldModel newModel)) ↔
      s.Confluent (.updateModelAdapter oldModel newModel) := by
  have hlists : ∀ p m, (s.step (.updateModelAdapter oldModel newModel)).Lists p m ↔
      s.Lists p m ∧ ¬ (m = oldModel.name ∧ p ∈ oldModel.instances) ∨
        m = oldModel.name ∧ p ∈ newModel.instances ∧ (s.serves p).isSome := by
    intro p m
    rw [lists_step h hl, ← h.tracked_iff ha]
    refine (Mapping.mem_lists_linkAll _ _).trans ?_
    rw [Mapping.tracked_unlinkAll, hl.2]
    rfl
  have hinst := instances_step hl newModel.name (some newModel) rfl
  rw [hl.2] at hinst
  have hbefore : s.instances oldModel.name = oldModel.instances := by
    simp [hl.1]
  rw [agrees_iff_of_adapter ha oldModel.name _ (serves_step_same rfl) _]
  · show _ ↔ ∀ p, p ∈ oldModel.instances → p ∉ newModel.instances → s.serves p ≠ some oldModel.name
    refine forall_congr' fun p => ?_
    rw [← unlink_iff, hlists, hinst, ha p oldModel.name, hbefore]
    simp [and_comm]
  · intro m hm p
    rw [hlists]
    simp [hm]
  · exact fun m hm => (hinst m).trans (if_neg hm)

lemma agrees_deleteModelAdapter (h : WF s) (ha : Agrees s) {model : Store.ModelAdapter}
    (hl : s.Lawful (.deleteModelAdapter (some model))) :
    Agrees (s.step (.deleteModelAdapter (some model))) ↔
      s.Confluent (.deleteModelAdapter (some model)) := by
  have hlists : ∀ p m, (s.step (.deleteModelAdapter (some model))).Lists p m ↔
      s.Lists p m ∧ ¬ (m = model.name ∧ p ∈ model.instances) :=
    fun p m => (lists_step h hl).trans (Mapping.mem_lists_unlinkAll _ _)
  have hinst := instances_step hl model.name none rfl
  have hbefore : s.instances model.name = model.instances := by
    change s.adapters model.name = some model at hl
    simp [hl]
  rw [agrees_iff_of_adapter ha model.name _ (serves_step_same rfl) _]
  · show _ ↔ ∀ p, p ∈ model.instances → s.serves p ≠ some model.name
    refine forall_congr' fun p => ?_
    have hiff := unlink_iff (o := s.serves p) (n := model.name) (P := p ∈ model.instances) (Q := False)
    rw [hlists, hinst, ha p model.name, hbefore]
    simpa using hiff
  · intro m hm p
    rw [hlists]
    simp [hm]
  · exact fun m hm => (hinst m).trans (if_neg hm)

lemma agrees_step_iff (h : WF s) (ha : Agrees s) (notice : Notice) :
    Agrees (s.step notice) ↔ (s.Lawful notice → s.Confluent notice) := by
  by_cases hl : s.Lawful notice
  · rw [forall_prop_of_true hl]
    cases notice with
    | addPod pod => exact agrees_addPod h ha hl
    | updatePod oldPod newPod => exact agrees_updatePod h ha hl
    | deletePod obj => exact iff_of_true (agrees_deletePod h ha hl) trivial
    | addModelAdapter model => exact iff_of_true (agrees_addModelAdapter h ha hl) trivial
    | updateModelAdapter oldModel newModel => exact agrees_updateModelAdapter h ha hl
    | deleteModelAdapter model =>
      cases model with
      | none => exact False.elim hl
      | some model => exact agrees_deleteModelAdapter h ha hl
  · rw [Mirror.step, if_neg hl]
    exact iff_of_true ha fun hl' => absurd hl' hl

/-- **The cache mapping is a function of the latest objects** in all states of a merge of the two
streams exactly when every event finds the other stream in a state that its handler can cope with. -/
theorem agrees_run_iff (es : List Notice) : (∀ es', es' <+: es → Agrees (run es')) ↔
      Lib.Along step (fun s notice => s.Lawful notice → s.Confluent notice) {} es :=
  Lib.along_iff_of_invariant wf_new (by simp [Agrees, Lists, Store.mapping, Mirror.serves])
    (fun _ e h => h.step e) fun _ e h ha => agrees_step_iff h ha e

/-- A pod with an adapter, and any update of the pod: the pod is no longer listed for the adapter. -/
theorem agrees_run_podUpdate : let pod : PodObject := ⟨"p", some "base", none⟩
    let s := run [.addPod pod, .addModelAdapter ⟨"lora", ["p"]⟩, .updatePod pod pod]
    s.serves "p" = some "base" ∧ s.instances "lora" = ["p"] ∧ ¬ s.Lists "p" "lora" ∧ ¬ Agrees s := by
  intro pod s
  have hserves : s.serves "p" = some "base" := by decide +kernel
  have hinst : s.instances "lora" = ["p"] := by decide +kernel
  have hnone : (s.store.metaModels.lookup "lora").isNone = true := by decide +kernel
  have hlists : ¬ s.Lists "p" "lora" := by
    intro hl
    obtain ⟨model, hmodel, _⟩ := Store.mem_lists.mp hl
    simp [hmodel] at hnone
  refine ⟨hserves, hinst, hlists, fun ha => hlists ((ha "p" "lora").mpr (Or.inr ?_))⟩
  exact ⟨rfl, List.mem_singleton_self _⟩

end Mirror
end Lodestar.Cache
