import Mathlib.Data.List.Nodup
import Mathlib.Data.List.Perm.Subperm
import Mathlib.Logic.Relation
import Cascade.Origin.InfoTable

/-!
# Places form a forest

A place that is there is linked to at most one parent, and the parent may be gone.  The links
between places that are there (`Origins.Links`) never lead back to where they started
(`Origins.IsForest`): a new link is refused if the child is met on the way up from the parent, and
no other command adds a link.

The way up is followed for as many steps as there are numbers.  Without cycles no number is met
twice, so this is always enough: `Origins.lineage` is the whole way up (`Origins.climbs_lineage`),
and a place is met on it exactly if links lead to it (`Origins.mem_lineage_iff`).

What a command can do to the places is listed once (`Origins.Moves`, `InfoTable.moves_step`).  A run
of commands (`InfoTable.Run`) on places that are there keeps `Origins.Tracks`: the places form a
forest, and the links are those that earlier commands of the run have set.
-/

namespace Cascade

/-- A command of a run, and why it was refused, if it was. -/
abbrev InfoEntry := InfoCommand × Option Error

/-- The command is not one that has linked a place. -/
def InfoEntry.SetsNoLink (entry : InfoEntry) : Prop :=
  ∀ child parent, entry ≠ (.setParent child parent, none)

namespace Origins

variable {o : Origins} {id child parent : Nat}

/-! ### Places and links -/

/-- The place of a number is there. -/
def IsLive (o : Origins) (id : Nat) : Prop :=
  (o.get? id).isSome

instance : Decidable (o.IsLive id) :=
  inferInstanceAs (Decidable ((o.get? id).isSome = true))

/-- The number of the parent that a place was linked to. -/
def link? (o : Origins) (id : Nat) : Option Nat :=
  (o.get? id).bind Origin.parent

/-- A place that is there is linked to a parent that is there. -/
def Links (o : Origins) (child parent : Nat) : Prop :=
  o.link? child = some parent ∧ o.IsLive parent

/-- A place that is there has a number that was given out. -/
lemma IsLive.lt_length (h : o.IsLive id) : id < o.slots.length := by
  by_contra hid
  have hget : o.get? id = none := by
    rw [get?, List.getElem?_eq_none (Nat.le_of_not_lt hid), Option.join_none]
  rw [IsLive, hget] at h
  exact absurd h (by decide)

/-- A place that can be looked up is there. -/
lemma isLive_of_get? {origin : Origin} (h : o.get? id = some origin) : o.IsLive id :=
  Option.isSome_iff_exists.2 ⟨origin, h⟩

/-- Only a place that is there is linked. -/
lemma isLive_of_link? (h : o.link? child = some parent) : o.IsLive child := by
  obtain ⟨origin, horigin, -⟩ := Option.bind_eq_some_iff.1 h
  exact isLive_of_get? horigin

/-- Links lead to places that are there. -/
lemma IsLive.of_reflTransGen {a : Nat} (h : o.IsLive id) (ha : Relation.ReflTransGen o.Links id a) :
    o.IsLive a := by
  cases ha with
  | refl => exact h
  | tail _ hlast => exact hlast.2

/-- The place of a number after another one was put there. -/
lemma get?_set {slot : Option Origin} (h : id < o.slots.length) (n : Nat) :
    get? ⟨o.slots.set id slot⟩ n = if n = id then slot else o.get? n := by
  simp only [get?, List.getElem?_set]
  by_cases hn : n = id
  · rw [if_pos hn.symm, if_pos hn, if_pos h, Option.join_some]
  · rw [if_neg (Ne.symm hn), if_neg hn]

/-- The place of a number after one was added. -/
lemma get?_add {origin : Origin} (n : Nat) :
    (o.add origin).1.get? n = if n = o.slots.length then some origin else o.get? n := by
  simp only [get?, add, List.getElem?_append]
  by_cases hn : n < o.slots.length
  · rw [if_pos hn, if_neg (Nat.ne_of_lt hn)]
  · by_cases heq : n = o.slots.length
    · simp [heq]
    · have hout : o.slots.length < n := by omega
      rw [if_neg hn, if_neg heq, List.getElem?_eq_none (Nat.le_of_lt hout),
        List.getElem?_eq_none (by rw [List.length_singleton]; omega)]

/-- The place of a number after one was removed. -/
lemma get?_drop (n : Nat) : (o.drop id).get? n = if n = id then none else o.get? n := by
  by_cases hid : id < o.slots.length
  · exact get?_set hid n
  · have hset : o.slots.set id none = o.slots := List.set_eq_of_length_le (Nat.le_of_not_lt hid)
    simp only [get?, drop, hset]
    by_cases hn : n = id
    · rw [if_pos hn, hn, List.getElem?_eq_none (Nat.le_of_not_lt hid), Option.join_none]
    · rw [if_neg hn]

/-! ### The way up -/

/-- The way up from a place, through parents that are there: it ends at a place without a parent,
or where the parent is gone. -/
inductive Climbs (o : Origins) : Nat → List Nat → Prop where
  | gone {id : Nat} : ¬ o.IsLive id → Climbs o id []
  | top {id : Nat} : o.IsLive id → o.link? id = none → Climbs o id [id]
  | up {id parent : Nat} {rest : List Nat} : o.link? id = some parent → Climbs o parent rest →
    Climbs o id (id :: rest)

/-- Nothing is above a place that is gone. -/
lemma lineageWithin_of_gone (h : ¬ o.IsLive id) (n : Nat) : o.lineageWithin n id = [] := by
  cases n with
  | zero => rfl
  | succ n =>
    have hget : o.get? id = none := Option.not_isSome_iff_eq_none.1 h
    rw [lineageWithin, hget]

/-- A place without a link is the top. -/
lemma lineageWithin_of_top (h : o.IsLive id) (hlink : o.link? id = none) (n : Nat) :
    o.lineageWithin (n + 1) id = [id] := by
  obtain ⟨origin, horigin⟩ := Option.isSome_iff_exists.1 h
  have hparent : origin.parent = none := by
    rw [← hlink, link?, horigin, Option.bind_some]
  rw [lineageWithin, horigin]
  simp only [hparent]

/-- Above a linked place stands what is above its parent, after the parent itself. -/
lemma lineageWithin_of_link (hlink : o.link? id = some parent) (n : Nat) :
    o.lineageWithin (n + 1) id = id :: o.lineageWithin n parent := by
  obtain ⟨origin, horigin, hparent⟩ := Option.bind_eq_some_iff.1 hlink
  rw [lineageWithin, horigin]
  simp only [hparent]

/-- Induction along the way up: no steps are left, the place is gone, it is the top, or the rest of
the way starts at its parent. -/
lemma lineageWithin_induction {motive : Nat → Nat → List Nat → Prop}
    (zero : ∀ id, motive 0 id [])
    (gone : ∀ n id, ¬ o.IsLive id → motive (n + 1) id [])
    (top : ∀ n id, o.IsLive id → o.link? id = none → motive (n + 1) id [id])
    (up : ∀ n id parent, o.link? id = some parent → motive n parent (o.lineageWithin n parent) →
      motive (n + 1) id (id :: o.lineageWithin n parent)) (n id : Nat) :
    motive n id (o.lineageWithin n id) := by
  induction n generalizing id with
  | zero => exact zero id
  | succ n ih =>
    by_cases hlive : o.IsLive id
    · cases hlink : o.link? id with
      | none =>
        rw [lineageWithin_of_top hlive hlink]
        exact top n id hlive hlink
      | some parent =>
        rw [lineageWithin_of_link hlink]
        exact up n id parent hlink (ih parent)
    · rw [lineageWithin_of_gone hlive]
      exact gone n id hlive

/-- What is met within some steps is the whole way up, if there are fewer places than steps. -/
lemma climbs_of_length_lt {n : Nat} :
    (o.lineageWithin n id).length < n → o.Climbs id (o.lineageWithin n id) := by
  refine lineageWithin_induction (motive := fun n id ids => ids.length < n → o.Climbs id ids)
    ?zero ?gone ?top ?up n id
  case zero => exact fun _ h => absurd h (Nat.not_lt_zero _)
  case gone => exact fun _ _ hgone _ => .gone hgone
  case top => exact fun _ _ hlive hlink _ => .top hlive hlink
  case up => exact fun _ _ _ hlink ih h => .up hlink (ih (Nat.lt_of_succ_lt_succ h))

/-- The whole way up is met within as many steps as there are places on it. -/
lemma Climbs.lineageWithin_eq {ids : List Nat} (h : o.Climbs id ids) {n : Nat}
    (hn : ids.length ≤ n) : o.lineageWithin n id = ids := by
  induction h generalizing n with
  | gone hgone => exact lineageWithin_of_gone hgone n
  | top hlive hlink =>
    obtain ⟨m, rfl⟩ := Nat.exists_eq_add_of_le' hn
    exact lineageWithin_of_top hlive hlink m
  | up hlink _ ih =>
    obtain ⟨m, rfl⟩ := Nat.exists_eq_add_of_le' (Nat.le_trans (Nat.le_add_left 1 _) hn)
    rw [lineageWithin_of_link hlink, ih (Nat.le_of_succ_le_succ hn)]

/-- Links lead to everything that is met. -/
lemma reaches_of_mem {n a : Nat} :
    a ∈ o.lineageWithin n id → o.IsLive id ∧ Relation.ReflTransGen o.Links id a := by
  refine lineageWithin_induction (motive := fun _ id ids =>
    a ∈ ids → o.IsLive id ∧ Relation.ReflTransGen o.Links id a) ?zero ?gone ?top ?up n id
  case zero => exact fun _ h => absurd h List.not_mem_nil
  case gone => exact fun _ _ _ h => absurd h List.not_mem_nil
  case top =>
    intro _ id hlive _ h
    exact ⟨hlive, by rw [List.mem_singleton.1 h]⟩
  case up =>
    intro _ id parent hlink ih h
    refine ⟨isLive_of_link? hlink, ?_⟩
    rcases List.mem_cons.1 h with rfl | hrest
    · exact .refl
    · obtain ⟨hparent, hup⟩ := ih hrest
      exact .head ⟨hlink, hparent⟩ hup

/-- The whole way up meets everything that links lead to. -/
lemma Climbs.mem_of_reaches {ids : List Nat} {a : Nat} (h : o.Climbs id ids)
    (hlive : o.IsLive id) (ha : Relation.ReflTransGen o.Links id a) : a ∈ ids := by
  induction h with
  | gone hgone => exact absurd hlive hgone
  | top _ hlink =>
    rcases Relation.ReflTransGen.cases_head ha with rfl | ⟨b, hb, -⟩
    · exact List.mem_singleton_self _
    · exact absurd (hlink.symm.trans hb.1) (Option.some_ne_none _).symm
  | up hlink _ ih =>
    rcases Relation.ReflTransGen.cases_head ha with rfl | ⟨b, hb, hrest⟩
    · exact List.mem_cons_self
    · cases Option.some.inj (hlink.symm.trans hb.1)
      exact List.mem_cons_of_mem _ (ih hb.2 hrest)

/-- Links never lead back to where they started, and were made to numbers that were given out. -/
structure IsForest (o : Origins) : Prop where
  acyclic : ∀ id, ¬ Relation.TransGen o.Links id id
  known : ∀ {child parent}, o.link? child = some parent → parent < o.slots.length

namespace IsForest

/-- No number is met twice on the way up. -/
lemma nodup_lineageWithin (h : o.IsForest) (n id : Nat) : (o.lineageWithin n id).Nodup := by
  refine lineageWithin_induction (motive := fun _ _ ids => ids.Nodup) ?zero ?gone ?top ?up n id
  case zero => exact fun _ => List.nodup_nil
  case gone => exact fun _ _ _ => List.nodup_nil
  case top => exact fun _ id _ _ => List.nodup_singleton id
  case up =>
    intro n id parent hlink ih
    refine List.nodup_cons.2 ⟨fun hmem => ?_, ih⟩
    obtain ⟨hparent, hup⟩ := reaches_of_mem hmem
    exact h.acyclic id (Relation.TransGen.head' ⟨hlink, hparent⟩ hup)

/-- No way up is longer than there are numbers. -/
lemma length_lineageWithin_le (h : o.IsForest) (n id : Nat) :
    (o.lineageWithin n id).length ≤ o.slots.length := by
  have hsub : o.lineageWithin n id ⊆ List.range o.slots.length := by
    intro a ha
    obtain ⟨hlive, hup⟩ := reaches_of_mem ha
    exact List.mem_range.2 (hlive.of_reflTransGen hup).lt_length
  have hle := ((h.nodup_lineageWithin n id).subperm hsub).length_le
  rwa [List.length_range] at hle

/-- The lineage of a place is the whole way up. -/
theorem climbs_lineage (h : o.IsForest) (id : Nat) : o.Climbs id (o.lineage id) := by
  have hlength := h.length_lineageWithin_le (o.slots.length + 1) id
  have hclimbs := climbs_of_length_lt (Nat.lt_succ_of_le hlength)
  rw [lineage, hclimbs.lineageWithin_eq hlength]
  exact hclimbs

/-- The lineage of a place is what links lead to. -/
theorem mem_lineage_iff (h : o.IsForest) {a : Nat} :
    a ∈ o.lineage id ↔ o.IsLive id ∧ Relation.ReflTransGen o.Links id a :=
  ⟨reaches_of_mem, fun ha => (h.climbs_lineage id).mem_of_reaches ha.1 ha.2⟩

/-- Fewer links among known numbers form a forest as well. -/
lemma of_links {o' : Origins} (h : o.IsForest) (hlinks : ∀ {a b}, o'.Links a b → o.Links a b)
    (hknown : ∀ {a b}, o'.link? a = some b → b < o'.slots.length) : o'.IsForest := by
  refine ⟨fun id hcycle => h.acyclic id ?_, hknown⟩
  exact Relation.TransGen.mono (fun _ _ hab => hlinks hab) _ _ hcycle

end IsForest

/-! ### What a command does to the places -/

/-- What a command does to the places, given whether it was refused.  Only linking that was not
refused sets a link: to a parent that is there, from a place that has none and is not met on the
way up from the parent. -/
inductive Moves (o : Origins) : InfoEntry → Origins → Prop where
  | stay {entry : InfoEntry} : entry.SetsNoLink → Moves o entry o
  | add {entry : InfoEntry} {origin : Origin} : entry.SetsNoLink → origin.parent = none →
    Moves o entry (o.add origin).1
  | drop {entry : InfoEntry} {id : Nat} : entry.SetsNoLink → Moves o entry (o.drop id)
  | link {child parent : Nat} {origin : Origin} :
    o.get? child = some origin → origin.parent = none → o.IsLive parent →
    ¬ Relation.ReflTransGen o.Links parent child →
    Moves o (.setParent child parent, none)
      ⟨o.slots.set child (some { origin with parent := some parent })⟩

namespace Moves

variable {o' : Origins} {entry : InfoEntry}

/-- What a place is linked to afterwards: the new parent, or what it was linked to before. -/
lemma link?_cases (h : o.Moves entry o') (hlink : o'.link? child = some parent) :
    o.link? child = some parent ∨ entry = (.setParent child parent, none) := by
  cases h with
  | stay _ => exact .inl hlink
  | add _ hparent =>
    rw [link?, get?_add] at hlink
    split at hlink
    · rw [Option.bind_some, hparent] at hlink
      cases hlink
    · exact .inl hlink
  | drop _ =>
    rw [link?, get?_drop] at hlink
    split at hlink
    · cases hlink
    · exact .inl hlink
  | link hchild _ _ _ =>
    rw [link?, get?_set (isLive_of_get? hchild).lt_length] at hlink
    split at hlink
    next heq =>
      rw [Option.bind_some] at hlink
      cases Option.some.inj hlink
      cases heq
      exact .inr rfl
    next => exact .inl hlink

/-- Places that are there afterwards were there before, or are new. -/
lemma isLive_cases (h : o.Moves entry o') (hlive : o'.IsLive id) :
    o.IsLive id ∨ id = o.slots.length := by
  cases h with
  | stay _ => exact .inl hlive
  | add _ _ =>
    rw [IsLive, get?_add] at hlive
    split at hlive
    next heq => exact .inr heq
    next => exact .inl hlive
  | drop _ =>
    rw [IsLive, get?_drop] at hlive
    split at hlive
    · exact absurd hlive Bool.false_ne_true
    · exact .inl hlive
  | link hchild _ _ _ =>
    rw [IsLive, get?_set (isLive_of_get? hchild).lt_length] at hlive
    split at hlive
    next heq => exact .inl (heq ▸ isLive_of_get? hchild)
    next => exact .inl hlive

/-- Numbers are only added. -/
lemma length_le (h : o.Moves entry o') : o.slots.length ≤ o'.slots.length := by
  cases h with
  | stay _ => exact Nat.le_refl _
  | add _ _ => exact (List.sublist_append_left _ _).length_le
  | drop _ => exact Nat.le_of_eq List.length_set.symm
  | link _ _ _ _ => exact Nat.le_of_eq List.length_set.symm

/-- A link stays as long as its place is there. -/
lemma link?_eq (h : o.Moves entry o') (hlink : o.link? child = some parent)
    (hlive : o'.IsLive child) : o'.link? child = some parent := by
  cases h with
  | stay _ => exact hlink
  | add _ _ =>
    have hne : child ≠ o.slots.length := Nat.ne_of_lt (isLive_of_link? hlink).lt_length
    rwa [link?, get?_add, if_neg hne]
  | drop _ =>
    rw [IsLive, get?_drop] at hlive
    split at hlive
    · exact absurd hlive Bool.false_ne_true
    next hne => rwa [link?, get?_drop, if_neg hne]
  | @link linked _ origin hchild hnew _ _ =>
    have hne : child ≠ linked := by
      rintro rfl
      rw [link?, hchild, Option.bind_some, hnew] at hlink
      cases hlink
    rwa [link?, get?_set (isLive_of_get? hchild).lt_length, if_neg hne]

/-- A link that was not refused is set, between two places that are there. -/
lemma of_setParent (h : o.Moves (.setParent child parent, none) o') :
    o.IsLive child ∧ o.IsLive parent ∧ o'.link? child = some parent := by
  cases h with
  | stay hentry => exact absurd rfl (hentry child parent)
  | add hentry _ => exact absurd rfl (hentry child parent)
  | drop hentry => exact absurd rfl (hentry child parent)
  | link hchild _ hparent _ =>
    have hlive := isLive_of_get? hchild
    refine ⟨hlive, hparent, ?_⟩
    rw [link?, get?_set hlive.lt_length, if_pos rfl, Option.bind_some]

end Moves

/-- A chain of links, with one more that does not close a cycle, does without the new one or leads
through it once. -/
lemma transGen_cases {o' : Origins}
    (hlinks : ∀ {a b}, o'.Links a b → o.Links a b ∨ a = child ∧ b = parent)
    (hapart : ¬ Relation.ReflTransGen o.Links parent child) {a b : Nat}
    (h : Relation.TransGen o'.Links a b) :
    Relation.TransGen o.Links a b ∨
      Relation.ReflTransGen o.Links a child ∧ Relation.ReflTransGen o.Links parent b := by
  induction h with
  | single hab =>
    rcases hlinks hab with hold | ⟨rfl, rfl⟩
    · exact .inl (.single hold)
    · exact .inr ⟨.refl, .refl⟩
  | tail _ hbc ih =>
    rcases hlinks hbc with hold | ⟨rfl, rfl⟩
    · exact ih.imp (fun hab => hab.tail hold) fun hab => ⟨hab.1, hab.2.tail hold⟩
    · rcases ih with hab | hab
      · exact .inr ⟨hab.to_reflTransGen, .refl⟩
      · exact absurd hab.2 hapart

/-- No command closes a cycle. -/
theorem IsForest.of_moves {o' : Origins} {entry : InfoEntry} (h : o.IsForest)
    (hmoves : o.Moves entry o') : o'.IsForest := by
  have hknown : ∀ {a b}, o'.link? a = some b → b < o'.slots.length := by
    intro a b hab
    refine Nat.lt_of_lt_of_le ?_ hmoves.length_le
    rcases hmoves.link?_cases hab with hold | rfl
    · exact h.known hold
    · exact hmoves.of_setParent.2.1.lt_length
  -- a link to a place that is there afterwards is new, or led to a place that was there before
  have hlinks : ∀ {a b}, o'.Links a b → o.Links a b ∨ entry = (.setParent a b, none) := by
    intro a b hab
    refine (hmoves.link?_cases hab.1).imp_left fun hold => ⟨hold, ?_⟩
    exact (hmoves.isLive_cases hab.2).resolve_right (Nat.ne_of_lt (h.known hold))
  have hold : entry.SetsNoLink → o'.IsForest :=
    fun hentry => h.of_links (fun hab => (hlinks hab).resolve_right (hentry _ _)) hknown
  cases hmoves with
  | stay hentry => exact hold hentry
  | add hentry _ => exact hold hentry
  | drop hentry => exact hold hentry
  | link hchild hnew hparent hapart =>
    refine ⟨fun id hcycle => ?_, hknown⟩
    have hnewLink : ∀ {a b}, Links _ a b → o.Links a b ∨ a = _ ∧ b = _ := fun hab =>
      (hlinks hab).imp_right fun heq => by
        cases heq
        exact ⟨rfl, rfl⟩
    rcases transGen_cases hnewLink hapart hcycle with hcycle | ⟨hdown, hup⟩
    · exact h.acyclic id hcycle
    · exact hapart (hup.trans hdown)

/-- The places form a forest, and the links of those that are there are the ones that commands of
the past have set. -/
structure Tracks (past : List InfoEntry) (o : Origins) : Prop where
  forest : o.IsForest
  recorded : ∀ {child}, o.IsLive child → ∀ parent,
    o.link? child = some parent ↔ (.setParent child parent, none) ∈ past
  given : ∀ {child parent}, (.setParent child parent, none) ∈ past → child < o.slots.length

/-- One more command. -/
lemma Tracks.of_moves {past : List InfoEntry} {o' : Origins}
    {entry : InfoEntry} (h : Tracks past o) (hmoves : o.Moves entry o') :
    Tracks (past ++ [entry]) o' := by
  refine ⟨h.forest.of_moves hmoves, fun {child} hlive parent => ?_, fun {child parent} hmem => ?_⟩
  · rw [List.mem_append, List.mem_singleton]
    constructor
    · intro hlink
      refine (hmoves.link?_cases hlink).imp (fun hold => ?_) Eq.symm
      exact (h.recorded (isLive_of_link? hold) parent).1 hold
    · rintro (hold | heq)
      · have hbefore : o.IsLive child :=
          (hmoves.isLive_cases hlive).resolve_right (Nat.ne_of_lt (h.given hold))
        exact hmoves.link?_eq ((h.recorded hbefore parent).2 hold) hlive
      · subst heq
        exact hmoves.of_setParent.2.2
  · refine Nat.lt_of_lt_of_le ?_ hmoves.length_le
    rcases List.mem_append.1 hmem with hold | heq
    · exact h.given hold
    · cases List.mem_singleton.1 heq
      exact hmoves.of_setParent.1.lt_length

/-! ### The index and the file in effect -/

/-- The index of a place itself. -/
def ownIndex (o : Origins) (id : Nat) : Nat :=
  ((o.get? id).map Origin.index).getD 0

/-- The file of a place itself. -/
def ownFile (o : Origins) (id : Nat) : Option FileInfo :=
  (o.get? id).bind Origin.file

/-- The index in effect is the first one on the way up that is not zero. -/
lemma index_eq_find? (o : Origins) (id : Nat) :
    o.index id = (((o.lineage id).map o.ownIndex).find? (· ≠ 0)).getD 0 := by
  have hown : (fun n => (o.get? n).bind fun origin =>
      if origin.index = 0 then none else some origin.index) =
      fun n => if o.ownIndex n ≠ 0 then some (o.ownIndex n) else none := by
    funext n
    unfold ownIndex
    cases o.get? n with
    | none => rfl
    | some origin => simp only [Option.bind_some, Option.map_some, Option.getD_some, ite_not]
  rw [index, hown]
  induction o.lineage id with
  | nil => rfl
  | cons n rest ih =>
    rw [List.findSome?_cons, List.map_cons, List.find?_cons]
    by_cases hn : o.ownIndex n = 0
    · simpa [hn] using ih
    · simp [hn]

/-- The file in effect is the first one on the way up. -/
lemma file_eq_head? (o : Origins) (id : Nat) :
    o.file id = ((o.lineage id).filterMap o.ownFile).head? :=
  List.head?_filterMap.symm

end Origins

/-! ### Runs -/

/-- The places that a command works on. -/
def InfoCommand.operands : InfoCommand → List Nat
  | .new .. => []
  | .clone source => [source]
  | .drop target | .change target _ => [target]
  | .setParent child parent => [child, parent]
  | .copyVisibility target source => [target, source]

namespace InfoTable

open Origins

variable {t t' : InfoTable} {history : List InfoEntry}

/-- A run of commands, each on places that are there, with the reasons why some were refused. -/
inductive Run : InfoTable → List InfoEntry → InfoTable → Prop where
  | done {t : InfoTable} : Run t [] t
  | next {t t' : InfoTable} {command : InfoCommand} {rest : List InfoEntry} :
    (∀ id ∈ command.operands, t.origins.IsLive id) → Run (t.step command).2 rest t' →
    Run t ((command, (t.step command).1) :: rest) t'

/-- Linking, by what the links lead to. -/
lemma step_setParent {child parent : Nat} {origin : Origin} (hforest : t.origins.IsForest)
    (hchild : t.origins.get? child = some origin) (hparent : t.origins.IsLive parent) :
    (Relation.ReflTransGen t.origins.Links parent child ∧
      t.step (.setParent child parent) = (some .ownAncestor, t)) ∨
    (¬ Relation.ReflTransGen t.origins.Links parent child ∧ origin.parent.isSome ∧
      t.step (.setParent child parent) = (some .secondParent, t)) ∨
    (¬ Relation.ReflTransGen t.origins.Links parent child ∧ origin.parent = none ∧
      t.step (.setParent child parent) = (none, { t with origins :=
        ⟨t.origins.slots.set child (some { origin with parent := some parent })⟩ })) := by
  have hmet : (t.origins.lineage parent).contains child ↔
      Relation.ReflTransGen t.origins.Links parent child := by
    rw [List.contains_iff_mem, hforest.mem_lineage_iff, and_iff_right hparent]
  rw [← hmet]
  by_cases hcontains : (t.origins.lineage parent).contains child
  · refine .inl ⟨hcontains, ?_⟩
    simp only [step, run, Origins.setParent, hcontains, if_true]
    rfl
  · refine .inr ?_
    cases hlink : origin.parent with
    | some other =>
      refine .inl ⟨hcontains, rfl, ?_⟩
      simp only [step, run, Origins.setParent, hcontains, hchild, hlink]
      rfl
    | none =>
      refine .inr ⟨hcontains, rfl, ?_⟩
      simp only [step, run, Origins.setParent, hcontains, hchild, hlink]
      rfl

/-- Every command on places that are there is one of the moves. -/
lemma moves_step (hforest : t.origins.IsForest) {command : InfoCommand}
    (hlive : ∀ id ∈ command.operands, t.origins.IsLive id) :
    t.origins.Moves (command, (t.step command).1) (t.step command).2.origins := by
  cases command with
  | new index file => exact .add (fun _ _ => nofun) rfl
  | clone source => exact .add (fun _ _ => nofun) rfl
  | drop target => exact .drop fun _ _ => nofun
  | change target change => exact .stay fun _ _ => nofun
  | copyVisibility target source => exact .stay fun _ _ => nofun
  | setParent child parent =>
    have hchild : t.origins.IsLive child := hlive child List.mem_cons_self
    have hparent : t.origins.IsLive parent := hlive parent (List.mem_cons_of_mem _ (.head _))
    obtain ⟨origin, horigin⟩ := Option.isSome_iff_exists.1 hchild
    rcases step_setParent hforest horigin hparent with ⟨-, hstep⟩ | ⟨-, -, hstep⟩ |
      ⟨hapart, hnew, hstep⟩
    · rw [hstep]
      exact .stay fun _ _ => nofun
    · rw [hstep]
      exact .stay fun _ _ => nofun
    · rw [hstep]
      exact .link horigin hnew hparent hapart

/-- What a run keeps: the forest, and that its links are those set by the past. -/
lemma Run.tracks {past : List InfoEntry} (h : Run t history t')
    (hpast : Tracks past t.origins) : Tracks (past ++ history) t'.origins := by
  induction h generalizing past with
  | done => rwa [List.append_nil]
  | next hlive _ ih =>
    have hstep := ih (hpast.of_moves (moves_step hpast.forest hlive))
    rwa [List.append_assoc] at hstep

/-- The empty table. -/
lemma tracks_empty : Tracks [] InfoTable.empty.origins where
  forest := by
    have hlink : ∀ id, InfoTable.empty.origins.link? id = none := fun _ => rfl
    refine ⟨fun id hcycle => ?_, fun h => ?_⟩
    · obtain ⟨next, hnext, -⟩ := Relation.TransGen.head'_iff.1 hcycle
      exact absurd (hlink id ▸ hnext.1) nofun
    · exact absurd (hlink _ ▸ h) nofun
  recorded h := absurd h.lt_length (Nat.not_lt_zero _)
  given h := absurd h List.not_mem_nil

/-- The link of a place stays as long as the place is there: no other place gets its number, so one
that is gone on the way does not come back. -/
lemma Run.link?_of_given (h : Run t history t') (hforest : t.origins.IsForest) {child parent : Nat}
    (hgiven : child < t.origins.slots.length)
    (hlink : t.origins.IsLive child → t.origins.link? child = some parent) :
    t'.origins.IsLive child → t'.origins.link? child = some parent := by
  induction h with
  | done => exact hlink
  | next hoperands _ ih =>
    have hmoves := moves_step hforest hoperands
    refine ih (hforest.of_moves hmoves) (Nat.lt_of_lt_of_le hgiven hmoves.length_le) ?_
    intro hafter
    have hbefore := (hmoves.isLive_cases hafter).resolve_right (Nat.ne_of_lt hgiven)
    exact hmoves.link?_eq (hlink hbefore) hafter

/-- A command that is refused changes nothing. -/
lemma step_eq_of_refused {command : InfoCommand} {error : Error}
    (h : (t.step command).1 = some error) : (t.step command).2 = t := by
  unfold step at h ⊢
  split at h
  · cases h
  · rfl

/-- A link is not refused exactly if none was set before and it closes no cycle. -/
lemma step_setParent_eq_none_iff (h : Tracks history t.origins) {child parent : Nat}
    (hchild : t.origins.IsLive child) (hparent : t.origins.IsLive parent) :
    (t.step (.setParent child parent)).1 = none ↔
      (∀ earlier, (.setParent child earlier, none) ∉ history) ∧
        ¬ Relation.ReflTransGen t.origins.Links parent child := by
  obtain ⟨origin, horigin⟩ := Option.isSome_iff_exists.1 hchild
  have hlink : t.origins.link? child = origin.parent := by
    rw [link?, horigin, Option.bind_some]
  have hnever : (∀ earlier, (.setParent child earlier, none) ∉ history) ↔
      origin.parent = none := by
    rw [← hlink, Option.eq_none_iff_forall_ne_some]
    exact forall_congr' fun earlier => not_congr (h.recorded hchild earlier).symm
  rw [hnever]
  rcases step_setParent h.forest horigin hparent with ⟨hmet, hstep⟩ | ⟨-, hsome, hstep⟩ |
    ⟨hapart, hnew, hstep⟩
  · rw [hstep]
    exact iff_of_false nofun fun h => h.2 hmet
  · rw [hstep]
    refine iff_of_false nofun fun h => ?_
    rw [h.1] at hsome
    exact absurd hsome Bool.false_ne_true
  · rw [hstep]
    exact iff_of_true rfl ⟨hnew, hapart⟩

/-- In every run, the links between places that are there never lead back to where they started, so
the way up from every place ends: the lineage of a place is all of it.  A place can be linked to a
parent exactly if it never was before, whether that parent is still there or not, and if it is not
the parent itself or met on the way up from it; a refused link changes nothing.  The links are those
that were set, and as long as a place is there its link is never changed.  The index and the file in
effect are the first ones on the way up. -/
theorem parents_form_forest (hrun : Run .empty history t) :
    (∀ id, ¬ Relation.TransGen t.origins.Links id id) ∧
    (∀ id, t.origins.Climbs id (t.origins.lineage id)) ∧
    (∀ child parent, t.origins.IsLive child → t.origins.IsLive parent →
      ((t.step (.setParent child parent)).1 = none ↔
        (∀ earlier, (.setParent child earlier, none) ∉ history) ∧
          ¬ Relation.ReflTransGen t.origins.Links parent child)) ∧
    (∀ child parent error, (t.step (.setParent child parent)).1 = some error →
      (t.step (.setParent child parent)).2 = t) ∧
    (∀ child parent, t.origins.IsLive child →
      (t.origins.link? child = some parent ↔ (.setParent child parent, none) ∈ history)) ∧
    (∀ later t' child parent, Run t later t' → t.origins.link? child = some parent →
      t'.origins.IsLive child → t'.origins.link? child = some parent) ∧
    ∀ id,
      t.origins.index id =
        (((t.origins.lineage id).map t.origins.ownIndex).find? (· ≠ 0)).getD 0 ∧
      t.origins.file id = ((t.origins.lineage id).filterMap t.origins.ownFile).head? := by
  have htracks : Tracks history t.origins := hrun.tracks tracks_empty
  refine ⟨htracks.forest.acyclic, htracks.forest.climbs_lineage, ?_, ?_, ?_, ?_, ?_⟩
  · exact fun child parent hchild hparent => step_setParent_eq_none_iff htracks hchild hparent
  · exact fun child parent error hrefused => step_eq_of_refused hrefused
  · exact fun child parent hlive => htracks.recorded hlive parent
  · intro later t' child parent hlater hlink
    exact hlater.link?_of_given htracks.forest (isLive_of_link? hlink).lt_length fun _ => hlink
  · exact fun id => ⟨index_eq_find? t.origins id, file_eq_head? t.origins id⟩

/-- Three places in a row, of which the first cannot be linked to the last until the middle one is
gone. -/
def brokenRow : List InfoEntry :=
  [(.new 3 none, none), (.new 0 (some ⟨"main", "", ""⟩), none), (.new 0 none, none),
    (.setParent 1 0, none), (.setParent 2 1, none), (.setParent 0 2, some .ownAncestor),
    (.drop 1, none), (.setParent 0 2, none)]

/-- The table after these commands. -/
def brokenRowTable : InfoTable :=
  ⟨⟨[some ⟨3, none, some 2⟩, none, some ⟨0, none, some 1⟩]⟩, [{}, {}, {}]⟩

/-- The last place keeps the link to the one that is gone, so it cannot be linked to the first. -/
theorem parents_form_forest_brokenRow :
    Run .empty brokenRow brokenRowTable ∧
      ¬ Relation.TransGen brokenRowTable.origins.Links 0 0 ∧
      brokenRowTable.origins.Climbs 0 [0, 2] ∧
      (brokenRowTable.step (.setParent 2 0)).1 ≠ none ∧
      brokenRowTable.origins.link? 2 = some 1 := by
  have hrun : Run .empty brokenRow brokenRowTable :=
    .next (by decide) <| .next (by decide) <| .next (by decide) <| .next (by decide) <|
      .next (by decide) <| .next (by decide) <| .next (by decide) <| .next (by decide) .done
  obtain ⟨hacyclic, hclimbs, hset, -, hlink, -⟩ := parents_form_forest hrun
  refine ⟨hrun, hacyclic 0, hclimbs 0, fun hnone => ?_, ?_⟩
  · exact ((hset 2 0 (by decide) (by decide)).1 hnone).1 1 (by decide)
  · exact (hlink 2 1 (by decide)).2 (by decide)

end InfoTable

end Cascade
