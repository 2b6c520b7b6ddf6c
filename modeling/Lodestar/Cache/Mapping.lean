import Lodestar.Cache.Store
import Lodestar.Lib.Run

/-!
# The mapping between pods and models

What the handlers of the informers make of the two maps of the cache, whatever the counters in the
records are.  `Mapping` says it with sets: the tracked pods, the pairs of a pod and a model in the
records of the pods, and those in the records of the models.  An action of a handler is an operation
on these sets (`mapping_act`), and so is a handler that has the lock from its first action to its
last (`Store.notify`).
-/

namespace Lodestar.Cache

open List

/-- The tracked pods, the pairs in the records of the pods, the pairs in those of the models. -/
@[ext]
structure Mapping where
  tracked : Set String
  has : Set (String × String)
  lists : Set (String × String)

namespace Mapping

def act (v : Mapping) : Store.Action → Mapping
  | .addPodLocked pod => { v with tracked := insert pod.name v.tracked }
  | .addPodAndModelMapping podName modelName =>
    { v with
      has := v.has ∪ {x | x = (podName, modelName) ∧ podName ∈ v.tracked}
      lists := v.lists ∪ {x | x = (podName, modelName) ∧ podName ∈ v.tracked} }
  | .deletePodLocked podName =>
    { v with
      tracked := v.tracked \ {podName}
      has := v.has \ {x | x.1 = podName} }
  | .deletePodAndModelMapping podName modelName ignoreMapping =>
    { v with
      has := v.has \ {x | x = (podName, modelName) ∧ ignoreMapping ≤ 0}
      lists := v.lists \ {x | x = (podName, modelName) ∧ 0 ≤ ignoreMapping} }

end Mapping

namespace Store

variable {c : Store}

def mapping (c : Store) : Mapping where
  tracked := {p | p ∈ c.metaPods}
  has := {x | ∃ pod, c.metaPods.lookup x.1 = some pod ∧ x.2 ∈ pod.models}
  lists := {x | ∃ model, c.metaModels.lookup x.2 = some model ∧ x.1 ∈ model.pods}

def Named (c : Store) : Prop := ∀ p pod, c.metaPods.lookup p = some pod → pod.pod.name = p

/-- No record of a model is without pods. -/
def NoneEmpty (c : Store) : Prop :=
  ∀ m model, c.metaModels.lookup m = some model → model.pods.entries ≠ []

variable {V : Type} {R : String → V → Prop} {l : AList fun _ : String => V} {k : String} {v : V}

lemma forall_lookup_insert (h : ∀ k v, l.lookup k = some v → R k v) (hv : R k v) :
    ∀ k' v', (l.insert k v).lookup k' = some v' → R k' v' := by
  intro k' v' hk'
  rw [lookup_insert] at hk'
  split at hk'
  · rename_i heq
    obtain rfl := Option.some.inj hk'
    exact heq ▸ hv
  · exact h k' v' hk'

lemma forall_lookup_erase (h : ∀ k v, l.lookup k = some v → R k v) (k : String) :
    ∀ k' v', (l.erase k).lookup k' = some v' → R k' v' := by
  intro k' v' hk'
  rw [lookup_erase] at hk'
  split at hk'
  · cases hk'
  · exact h k' v' hk'

/-- The records of the pods have the one property, those of the models the other. -/
structure Holds (P : String → PodRecord → Prop) (Q : String → ModelRecord → Prop) (c : Store) :
    Prop where
  pods : ∀ p pod, c.metaPods.lookup p = some pod → P p pod
  models : ∀ m model, c.metaModels.lookup m = some model → Q m model

/-- **An action** keeps a property of the records of the pods that does not look at their models, and
one that every record of a model has that is not without pods. -/
lemma Holds.act {P : String → PodRecord → Prop} {Q : String → ModelRecord → Prop} (h : c.Holds P Q)
    (hnew : ∀ pod : PodObject, P pod.name { pod := pod })
    (hP : ∀ p pod models, P p pod → P p { pod with models := models })
    (hQ : ∀ m model, model.pods.entries ≠ [] → Q m model) (a : Action) : (c.act a).Holds P Q := by
  have hmodel (c : Store) (h : c.Holds P Q) (p m : String) : (c.forgetModel p m).Holds P Q := by
    unfold Store.forgetModel
    cases hp : c.metaPods.lookup p with
    | none => exact h
    | some pod => exact ⟨forall_lookup_insert h.pods (hP _ _ _ (h.pods p pod hp)), h.models⟩
  have hpod (c : Store) (h : c.Holds P Q) (p m : String) : (c.forgetPod p m).Holds P Q := by
    unfold Store.forgetPod
    cases c.metaModels.lookup m with
    | none => exact h
    | some model =>
      dsimp only
      split
      · exact ⟨h.pods, forall_lookup_erase h.models m⟩
      · rename_i hleft
        exact ⟨h.pods, forall_lookup_insert h.models (hQ _ _ fun hnil => hleft (by rw [hnil]; rfl))⟩
  cases a with
  | addPodLocked pod =>
    show (c.addPodLocked pod).Holds P Q
    unfold addPodLocked
    cases c.metaPods.lookup pod.name with
    | none => exact ⟨forall_lookup_insert h.pods (hnew pod), h.models⟩
    | some _ => exact h
  | addPodAndModelMapping p m =>
    show (c.addPodAndModelMapping p m).Holds P Q
    unfold addPodAndModelMapping
    cases hp : c.metaPods.lookup p with
    | none => exact h
    | some pod =>
      exact ⟨forall_lookup_insert h.pods (hP _ _ _ (h.pods p pod hp)),
        forall_lookup_insert h.models (hQ _ _ (cons_ne_nil _ _))⟩
  | deletePodLocked p => exact ⟨forall_lookup_erase h.pods p, h.models⟩
  | deletePodAndModelMapping p m ignore =>
    show (c.deletePodAndModelMapping p m ignore).Holds P Q
    unfold deletePodAndModelMapping
    dsimp only
    split <;> split
    · exact hpod _ (hmodel c h p m) p m
    · exact hpod c h p m
    · exact hmodel c h p m
    · exact h

lemma Named.act (h : c.Named) (a : Action) : (c.act a).Named :=
  (Holds.act ⟨h, fun _ _ _ => trivial⟩ (fun _ => rfl) (fun _ _ _ => id)
    (fun _ _ _ => trivial) a).pods

lemma NoneEmpty.act (h : c.NoneEmpty) (a : Action) : (c.act a).NoneEmpty :=
  (Holds.act ⟨fun _ _ _ => trivial, h⟩ (fun _ => trivial)
    (fun _ _ _ => id) (fun _ _ => id) a).models

/-! ### The effect of an action on the sets -/

lemma mem_has {c : Store} {p m : String} :
    (p, m) ∈ c.mapping.has ↔ ∃ pod, c.metaPods.lookup p = some pod ∧ m ∈ pod.models := .rfl

lemma mem_lists {c : Store} {p m : String} :
    (p, m) ∈ c.mapping.lists ↔ ∃ model, c.metaModels.lookup m = some model ∧ p ∈ model.pods := .rfl

lemma mem_tracked {c : Store} {p : String} :
    p ∈ c.mapping.tracked ↔ ∃ pod, c.metaPods.lookup p = some pod := by
  show p ∈ c.metaPods ↔ _
  rw [← AList.lookup_isSome, Option.isSome_iff_exists]

variable {R : V → Prop} {k k' : String}

lemma exists_lookup_insert : (∃ w, (l.insert k v).lookup k' = some w ∧ R w) ↔
    if k' = k then R v else ∃ w, l.lookup k' = some w ∧ R w := by
  rw [lookup_insert]
  split <;> simp

lemma exists_lookup_erase : (∃ w, (l.erase k).lookup k' = some w ∧ R w) ↔
    k' ≠ k ∧ ∃ w, l.lookup k' = some w ∧ R w := by
  rw [lookup_erase]
  split <;> simp [*]

lemma mem_insert_of_mem (h : k ∈ l) : k' ∈ l.insert k v ↔ k' ∈ l := by
  rw [AList.mem_insert, or_iff_right_of_imp fun heq => heq ▸ h]

attribute [local simp] Mapping.act

lemma mapping_addPodLocked (pod : PodObject) :
    (c.addPodLocked pod).mapping = c.mapping.act (.addPodLocked pod) := by
  unfold addPodLocked
  cases hp : c.metaPods.lookup pod.name with
  | some record =>
    have hmem : pod.name ∈ c.mapping.tracked := mem_tracked.mpr ⟨record, hp⟩
    simp [Set.insert_eq_of_mem hmem]
  | none =>
    ext x
    · simp [mapping]
    · obtain ⟨q, m⟩ := x
      refine exists_lookup_insert.trans ?_
      split_ifs <;> simp_all [mapping]
    · rfl

lemma mem_singleton {V : Type} {k k' : String} {v : V} :
    k' ∈ AList.singleton (β := fun _ => V) k v ↔ k' = k := by
  rw [AList.mem_keys, AList.keys_singleton, List.mem_singleton]

lemma mapping_addPodAndModelMapping (hn : c.Named) (p m : String) :
    (c.addPodAndModelMapping p m).mapping = c.mapping.act (.addPodAndModelMapping p m) := by
  unfold addPodAndModelMapping
  cases hp : c.metaPods.lookup p with
  | none =>
    have hmem : p ∉ c.mapping.tracked := by simp [mem_tracked, hp]
    simp [hmem]
  | some pod =>
    have hmem : p ∈ c.metaPods := AList.lookup_isSome.mp (by simp [hp])
    have hname : pod.pod.name = p := hn p pod hp
    ext x
    · exact mem_insert_of_mem hmem
    · obtain ⟨q, n⟩ := x
      refine exists_lookup_insert.trans ?_
      split_ifs <;> simp_all [mapping]
    · obtain ⟨q, n⟩ := x
      refine exists_lookup_insert.trans ?_
      cases hm : c.metaModels.lookup m <;> split_ifs <;> simp_all [mapping, mem_singleton]

lemma mapping_deletePodLocked (p : String) :
    (c.deletePodLocked p).mapping = c.mapping.act (.deletePodLocked p) := by
  ext x
  · show x ∈ c.metaPods.erase p ↔ _
    rw [AList.mem_erase]
    exact and_comm
  · exact exists_lookup_erase.trans and_comm
  · rfl

lemma mapping_forgetModel (p m : String) :
    (c.forgetModel p m).mapping = { c.mapping with has := c.mapping.has \ {(p, m)} } := by
  unfold Store.forgetModel
  cases hp : c.metaPods.lookup p with
  | none =>
    have hmem : (p, m) ∉ c.mapping.has := by simp [mem_has, hp]
    rw [Set.sdiff_singleton_eq_self hmem]
  | some pod =>
    ext x
    · exact mem_insert_of_mem (AList.lookup_isSome.mp (by simp [hp]))
    · obtain ⟨q, n⟩ := x
      refine exists_lookup_insert.trans ?_
      split_ifs <;> simp_all [mapping, and_comm]
    · rfl

lemma mapping_forgetPod (p m : String) :
    (c.forgetPod p m).mapping = { c.mapping with lists := c.mapping.lists \ {(p, m)} } := by
  unfold Store.forgetPod
  cases hm : c.metaModels.lookup m with
  | none =>
    have hmem : (p, m) ∉ c.mapping.lists := by simp [mem_lists, hm]
    rw [Set.sdiff_singleton_eq_self hmem]
  | some model =>
    -- the record of the model without the pod
    dsimp only
    split
    · -- it was the last one
      rename_i hempty
      have hnone : ∀ q, q ∉ model.pods.erase p := by
        intro q hq
        rw [AList.mem_keys, AList.keys, eq_nil_of_length_eq_zero hempty] at hq
        simp at hq
      ext x
      · rfl
      · rfl
      · obtain ⟨q, n⟩ := x
        refine exists_lookup_erase.trans ?_
        have hq := hnone q
        by_cases hnm : n = m
        · simpa [mapping, hm, hnm, and_comm] using hq
        · simp [mapping, hnm]
    · ext x
      · rfl
      · rfl
      · obtain ⟨q, n⟩ := x
        refine exists_lookup_insert.trans ?_
        split_ifs <;> simp_all [mapping, and_comm]

/-- **The store refines the mapping**, action by action. -/
lemma mapping_act (hn : c.Named) (a : Action) : (c.act a).mapping = c.mapping.act a := by
  cases a with
  | addPodLocked pod => exact mapping_addPodLocked pod
  | addPodAndModelMapping p m => exact mapping_addPodAndModelMapping hn p m
  | deletePodLocked p => exact mapping_deletePodLocked p
  | deletePodAndModelMapping p m ignore =>
    simp only [Store.act, deletePodAndModelMapping]
    by_cases hle : ignore ≤ 0 <;> by_cases hge : 0 ≤ ignore <;>
      ext x <;> simp [mapping_forgetPod, mapping_forgetModel, hle, hge]

lemma mapping_foldl (hn : c.Named) (as : List Action) :
    (as.foldl Store.act c).Named ∧ (as.foldl Store.act c).mapping = as.foldl Mapping.act c.mapping := by
  induction as generalizing c with
  | nil => exact ⟨hn, rfl⟩
  | cons a as ih =>
    obtain ⟨hn', hm⟩ := ih (hn.act a)
    refine ⟨hn', ?_⟩
    rw [foldl_cons, hm, mapping_act hn, foldl_cons]

structure Symmetric (c : Store) : Prop where
  named : c.Named
  has : c.mapping.has = c.mapping.lists

lemma symmetric_new : Symmetric {} where
  named p pod h := by simp at h
  has := by ext x; simp [mapping]

/-- A handler, from the time it takes the lock to the time it gives it back. -/
def notify (c : Store) (notice : Notice) : Store := (c.handle notice).foldl Store.act c

end Store

/-! ### The handlers -/

namespace Mapping

variable (v : Mapping)

lemma foldl_link (modelName : String) (pods : List String) :
    (pods.map fun p => Store.Action.addPodAndModelMapping p modelName).foldl act v = { v with
        has := v.has ∪ {x | x.2 = modelName ∧ x.1 ∈ pods ∧ x.1 ∈ v.tracked}
        lists := v.lists ∪ {x | x.2 = modelName ∧ x.1 ∈ pods ∧ x.1 ∈ v.tracked} } := by
  induction pods generalizing v with
  | nil => simp
  | cons p pods ih =>
    rw [map_cons, foldl_cons, ih]
    ext ⟨q, m⟩
    · rfl
    · simp only [act, Set.mem_union, Set.mem_ofPred_eq, mem_cons]
      grind
    · simp only [act, Set.mem_union]
      grind

lemma foldl_unlink (modelName : String) (pods : List String) :
    (pods.map fun p => Store.Action.deletePodAndModelMapping p modelName 0).foldl act v = { v with
        has := v.has \ {x | x.2 = modelName ∧ x.1 ∈ pods}
        lists := v.lists \ {x | x.2 = modelName ∧ x.1 ∈ pods} } := by
  induction pods generalizing v with
  | nil => simp
  | cons p pods ih =>
    rw [map_cons, foldl_cons, ih]
    ext ⟨q, m⟩
    · rfl
    · simp only [act, Set.mem_sdiff, Set.mem_ofPred_eq]
      grind
    · simp only [act, Set.mem_sdiff, Set.mem_ofPred_eq]
      grind

lemma foldl_unlist (podName : String) (models : List String) :
    (models.map fun m => Store.Action.deletePodAndModelMapping podName m 1).foldl act v =
      { v with lists := v.lists \ {x | x.1 = podName ∧ x.2 ∈ models} } := by
  induction models generalizing v with
  | nil => simp
  | cons m models ih =>
    rw [map_cons, foldl_cons, ih]
    ext ⟨q, n⟩
    · rfl
    · simp [act]
    · simp only [act, Set.mem_sdiff, Set.mem_ofPred_eq]
      grind

def drop (podName : String) : Mapping where
  tracked := v.tracked \ {podName}
  has := v.has \ {x | x.1 = podName}
  lists := v.lists \ {x | x.1 = podName}

def link (podName modelName : String) : Mapping where
  tracked := insert podName v.tracked
  has := insert (podName, modelName) v.has
  lists := insert (podName, modelName) v.lists

lemma foldl_add (pod : PodObject) (modelName : String) :
    [Store.Action.addPodLocked pod, .addPodAndModelMapping pod.name modelName].foldl act v =
      v.link pod.name modelName := by
  ext ⟨q, m⟩ <;> simp [act, link]

end Mapping

namespace Store

variable {c : Store}

lemma foldl_dropPod (h : c.Symmetric) (podName : String) :
    (c.dropPod podName).foldl Mapping.act c.mapping = c.mapping.drop podName := by
  unfold dropPod
  rw [foldl_cons]
  cases hp : c.metaPods.lookup podName with
  | none =>
    have hlists : ∀ m, (podName, m) ∉ c.mapping.lists := by
      intro m hm
      rw [← h.has, mem_has] at hm
      simp [hp] at hm
    ext ⟨q, m⟩
    · rfl
    · rfl
    · simp only [Mapping.act, Mapping.drop]
      grind
  | some record =>
    have hlists : ∀ m, (podName, m) ∈ c.mapping.lists ↔ m ∈ record.models := by
      intro m
      rw [← h.has, mem_has]
      simp [hp]
    rw [Mapping.foldl_unlist]
    ext ⟨q, m⟩
    · rfl
    · rfl
    · have hm := hlists m
      rw [AList.mem_keys] at hm
      simp only [Mapping.act, Mapping.drop]
      grind

lemma drop_of_not_tracked (h : c.Symmetric) {podName : String}
    (hp : podName ∉ c.mapping.tracked) : c.mapping.drop podName = c.mapping := by
  have hhas : ∀ m, (podName, m) ∉ c.mapping.has := by
    intro m hm
    obtain ⟨record, hrecord, _⟩ := mem_has.mp hm
    exact hp (mem_tracked.mpr ⟨record, hrecord⟩)
  ext ⟨q, m⟩
  · simp only [Mapping.drop]
    grind
  · simp only [Mapping.drop]
    grind
  · have hm := hhas m
    rw [h.has] at hm
    simp only [Mapping.drop]
    grind

lemma foldl_drop_if (h : c.Symmetric) (podName : String) (labelled : Bool) :
    (if labelled || (c.metaPods.lookup podName).isSome then c.dropPod podName else []).foldl
      Mapping.act c.mapping = c.mapping.drop podName := by
  split
  · exact foldl_dropPod h podName
  · rename_i hnot
    refine (drop_of_not_tracked h fun hp => hnot ?_).symm
    obtain ⟨record, hrecord⟩ := mem_tracked.mp hp
    simp [hrecord]

end Store

/-- The model that a pod serves, if the cache is to track it. -/
def PodObject.serves (pod : PodObject) : Option String := if pod.isWorker then none else pod.modelName

namespace Mapping

variable (v : Mapping)

/-- The pod is tracked with the model, if there is one. -/
def linkIf (podName : String) : Option String → Mapping
  | none => v
  | some modelName => v.link podName modelName

def dropIf : Option String → Mapping
  | none => v
  | some podName => v.drop podName

/-- All pods of the list that are tracked get the model. -/
def linkAll (model : Store.ModelAdapter) : Mapping where
  tracked := v.tracked
  has := v.has ∪ {x | x.2 = model.name ∧ x.1 ∈ model.instances ∧ x.1 ∈ v.tracked}
  lists := v.lists ∪ {x | x.2 = model.name ∧ x.1 ∈ model.instances ∧ x.1 ∈ v.tracked}

def unlinkAll (model : Store.ModelAdapter) : Mapping where
  tracked := v.tracked
  has := v.has \ {x | x.2 = model.name ∧ x.1 ∈ model.instances}
  lists := v.lists \ {x | x.2 = model.name ∧ x.1 ∈ model.instances}

def handle : Notice → Mapping
  | .addPod pod => v.linkIf pod.name pod.serves
  | .updatePod oldPod newPod =>
    (v.drop oldPod.name).linkIf newPod.name (if oldPod.isWorker then none else newPod.serves)
  | .deletePod obj => v.dropIf obj.name
  | .addModelAdapter model => v.linkAll model
  | .updateModelAdapter oldModel newModel => (v.unlinkAll oldModel).linkAll newModel
  | .deleteModelAdapter none => v
  | .deleteModelAdapter (some model) => v.unlinkAll model

variable {p q m : String}

@[simp]
lemma mem_tracked_drop : p ∈ (v.drop q).tracked ↔ p ∈ v.tracked ∧ p ≠ q := .rfl

@[simp]
lemma mem_lists_drop : (p, m) ∈ (v.drop q).lists ↔ (p, m) ∈ v.lists ∧ p ≠ q := .rfl

@[simp]
lemma mem_tracked_linkIf (o : Option String) :
    p ∈ (v.linkIf q o).tracked ↔ p ∈ v.tracked ∨ p = q ∧ o.isSome := by
  cases o <;> simp [linkIf, link, or_comm]

@[simp]
lemma mem_lists_linkIf (o : Option String) :
    (p, m) ∈ (v.linkIf q o).lists ↔ (p, m) ∈ v.lists ∨ p = q ∧ o = some m := by
  cases o <;> simp [linkIf, link, or_comm, eq_comm]

section

variable (model : Store.ModelAdapter)

@[simp]
lemma mem_lists_linkAll : (p, m) ∈ (v.linkAll model).lists ↔
    (p, m) ∈ v.lists ∨ m = model.name ∧ p ∈ model.instances ∧ p ∈ v.tracked := .rfl

@[simp]
lemma mem_lists_unlinkAll : (p, m) ∈ (v.unlinkAll model).lists ↔
    (p, m) ∈ v.lists ∧ ¬ (m = model.name ∧ p ∈ model.instances) := .rfl

@[simp]
lemma tracked_unlinkAll : (v.unlinkAll model).tracked = v.tracked := rfl

end

lemma has_handle (h : v.has = v.lists) (notice : Notice) :
    (v.handle notice).has = (v.handle notice).lists := by
  have hlink : ∀ (w : Mapping) (p : String) (m : Option String), w.has = w.lists →
      (w.linkIf p m).has = (w.linkIf p m).lists := by
    intro w p m hw
    cases m <;> simp [linkIf, link, hw]
  cases notice with
  | addPod pod => exact hlink v _ _ h
  | updatePod oldPod newPod => exact hlink _ _ _ (by simp [drop, h])
  | deletePod obj =>
    show (v.dropIf obj.name).has = (v.dropIf obj.name).lists
    cases obj.name <;> simp [dropIf, drop, h]
  | addModelAdapter model => simp [handle, linkAll, h]
  | updateModelAdapter oldModel newModel => simp [handle, linkAll, unlinkAll, h]
  | deleteModelAdapter model => cases model <;> simp [handle, unlinkAll, h]

end Mapping

namespace Store

variable {c : Store}

/-- **A handler as a whole**, on maps that have the same pairs. -/
lemma foldl_handle (h : c.Symmetric) (notice : Notice) :
    (c.handle notice).foldl Mapping.act c.mapping = c.mapping.handle notice := by
  cases notice with
  | addPod pod =>
    show (addPod pod).foldl Mapping.act c.mapping = c.mapping.linkIf pod.name pod.serves
    unfold addPod PodObject.serves
    cases hm : pod.modelName with
    | none => cases pod.isWorker <;> rfl
    | some m =>
      cases pod.isWorker with
      | true => rfl
      | false => exact Mapping.foldl_add c.mapping pod m
  | updatePod oldPod newPod =>
    show (c.updatePod oldPod newPod).foldl Mapping.act c.mapping = (c.mapping.drop oldPod.name).linkIf
      newPod.name (if oldPod.isWorker then none else newPod.serves)
    unfold updatePod
    rw [foldl_append, foldl_drop_if h]
    unfold PodObject.serves
    cases oldPod.isWorker with
    | true => rfl
    | false =>
      cases newPod.isWorker with
      | true => rfl
      | false =>
        cases newPod.modelName with
        | none => rfl
        | some m => exact Mapping.foldl_add _ newPod m
  | deletePod obj =>
    show (c.deletePod obj).foldl Mapping.act c.mapping = c.mapping.dropIf obj.name
    unfold deletePod
    cases obj.name with
    | none => rfl
    | some name => exact foldl_drop_if h name _
  | addModelAdapter model => exact Mapping.foldl_link c.mapping model.name model.instances
  | updateModelAdapter oldModel newModel =>
    show (updateModelAdapter oldModel newModel).foldl Mapping.act c.mapping = _
    unfold updateModelAdapter deleteModelAdapter addModelAdapter
    rw [foldl_append, Mapping.foldl_unlink, Mapping.foldl_link]
    rfl
  | deleteModelAdapter model =>
    cases model with
    | none => rfl
    | some model => exact Mapping.foldl_unlink c.mapping model.name model.instances

/-- **The handlers refine the mapping**, and the two maps keep the same pairs. -/
lemma Symmetric.notify (h : c.Symmetric) (notice : Notice) :
    (c.notify notice).Symmetric ∧ (c.notify notice).mapping = c.mapping.handle notice := by
  obtain ⟨hnamed, hmapping⟩ := mapping_foldl h.named (c.handle notice)
  rw [foldl_handle h] at hmapping
  refine ⟨⟨hnamed, ?_⟩, hmapping⟩
  show ((c.handle notice).foldl Store.act c).mapping.has = _
  rw [Store.notify, hmapping]
  exact Mapping.has_handle c.mapping h.has notice

/-- **The two maps stay symmetric** under every history of informer events: they have the same pairs,
the pods in the record of a model are tracked, and no record of a model is without pods. -/
theorem maps_symmetric (es : List Notice) :
    let c := es.foldl notify {}
    (∀ p pod, c.metaPods.lookup p = some pod → ∀ m, m ∈ pod.models ↔
      ∃ model, c.metaModels.lookup m = some model ∧ p ∈ model.pods) ∧
    (∀ m model, c.metaModels.lookup m = some model →
      (∀ p ∈ model.pods, ∃ pod, c.metaPods.lookup p = some pod) ∧ model.pods.entries ≠ []) := by
  intro c
  obtain ⟨hsymm, hempty⟩ : c.Symmetric ∧ c.NoneEmpty :=
    Lib.foldl_invariant (I := fun c : Store => c.Symmetric ∧ c.NoneEmpty)
      ⟨symmetric_new, fun m model h => by cases h⟩
      (fun c notice h => ⟨(h.1.notify notice).1, Lib.foldl_invariant h.2 (fun _ a h => h.act a) _⟩) es
  refine ⟨fun p pod hp m => ?_, fun m model hm => ⟨fun p hpm => ?_, hempty m model hm⟩⟩
  · rw [← mem_lists, ← hsymm.has, mem_has, hp]
    simp
  · have hhas : (p, m) ∈ c.mapping.has := hsymm.has ▸ mem_lists.mpr ⟨model, hm, hpm⟩
    obtain ⟨pod, hpod, -⟩ := mem_has.mp hhas
    exact ⟨pod, hpod⟩

end Store
end Lodestar.Cache
