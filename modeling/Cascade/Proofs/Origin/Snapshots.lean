import Cascade.Proofs.Origin.Forest

/-!
# Copies of places

A copy stands where the copied place stands at that moment.  What the copied place takes from its
ancestors becomes the copy's own, and the copy has no link.

What a place has of its own never changes as long as the place is there
(`InfoTable.Run.own_eq`), and what it has of its own is in effect; a link only matters for what is
missing (`Origins.IsForest.effective_of_link`).  So a copy is a lasting snapshot
(`InfoTable.clone_lasts`): whatever happens to the copied place and to its ancestors, the copy stays
where it is, and linking the copy itself can only fill in an index or a file that is missing.
-/

namespace Cascade

namespace Origins

variable {o o' : Origins} {id parent : Nat}

/-! ### What is in effect -/

/-- The way up is determined by the links. -/
lemma IsForest.lineage_eq (h : o.IsForest) {ids : List Nat} (hids : o.Climbs id ids) :
    o.lineage id = ids := by
  have hlineage := h.climbs_lineage id
  calc o.lineage id = o.lineageWithin (max (o.lineage id).length ids.length) id :=
        (hlineage.lineageWithin_eq (Nat.le_max_left _ _)).symm
    _ = ids := hids.lineageWithin_eq (Nat.le_max_right _ _)

/-- Of a place without a link, what it has of its own is in effect. -/
lemma IsForest.effective_of_top (h : o.IsForest) (hlive : o.IsLive id)
    (hlink : o.link? id = none) : o.index id = o.ownIndex id ∧ o.file id = o.ownFile id := by
  rw [index_eq_find?, file_eq_head?, h.lineage_eq (.top hlive hlink)]
  constructor
  · by_cases hown : o.ownIndex id = 0 <;> simp [hown]
  · cases hown : o.ownFile id <;> simp [hown]

/-- Of a linked place, what it lacks is taken from the parent. -/
lemma IsForest.effective_of_link (h : o.IsForest) (hlink : o.link? id = some parent) :
    o.index id = (if o.ownIndex id = 0 then o.index parent else o.ownIndex id) ∧
      o.file id = (o.ownFile id).or (o.file parent) := by
  have hlineage := h.lineage_eq (.up hlink (h.climbs_lineage parent))
  rw [index_eq_find?, index_eq_find?, file_eq_head?, file_eq_head?, hlineage]
  constructor
  · by_cases hown : o.ownIndex id = 0 <;> simp [hown]
  · cases hown : o.ownFile id <;> simp [hown]

/-! ### What a place has of its own -/

/-- No command changes what a place has of its own. -/
lemma Moves.own_eq {entry : InfoEntry} (h : o.Moves entry o') (hgiven : id < o.slots.length)
    (hlive : o'.IsLive id) : o'.ownIndex id = o.ownIndex id ∧ o'.ownFile id = o.ownFile id := by
  unfold ownIndex ownFile
  cases h with
  | stay _ => exact ⟨rfl, rfl⟩
  | add _ _ =>
    rw [get?_add, if_neg (Nat.ne_of_lt hgiven)]
    exact ⟨rfl, rfl⟩
  | drop _ =>
    rw [IsLive, get?_drop] at hlive
    rw [get?_drop]
    split at hlive
    · exact absurd hlive Bool.false_ne_true
    next hne =>
      rw [if_neg hne]
      exact ⟨rfl, rfl⟩
  | @link child _ origin hchild _ _ _ =>
    rw [get?_set (isLive_of_get? hchild).lt_length]
    by_cases heq : id = child
    · rw [if_pos heq, heq, hchild]
      exact ⟨rfl, rfl⟩
    · rw [if_neg heq]
      exact ⟨rfl, rfl⟩

/-- Linking gives out no number. -/
lemma length_slots_setParent {child : Nat} (h : o.setParent child parent = .ok o') :
    o'.slots.length = o.slots.length := by
  unfold setParent at h
  split at h
  · cases h
  · split at h
    · cases h
      rfl
    · split at h
      · cases h
      · cases h
        exact List.length_set

end Origins

namespace InfoTable

open Origins

variable {t t' : InfoTable} {history : List InfoEntry} {id : Nat}

/-- A place that is there at the end of a run was there at its start, and has the same of its
own. -/
lemma Run.own_eq (h : Run t history t') (hforest : t.origins.IsForest)
    (hgiven : id < t.origins.slots.length) (hlive : t'.origins.IsLive id) :
    t.origins.IsLive id ∧ t'.origins.ownIndex id = t.origins.ownIndex id ∧
      t'.origins.ownFile id = t.origins.ownFile id := by
  induction h with
  | done => exact ⟨hlive, rfl, rfl⟩
  | next hoperands _ ih =>
    have hmoves := moves_step hforest hoperands
    obtain ⟨hafter, hindex, hfile⟩ := ih (hforest.of_moves hmoves)
      (Nat.lt_of_lt_of_le hgiven hmoves.length_le) hlive
    obtain ⟨hindex', hfile'⟩ := hmoves.own_eq hgiven hafter
    exact ⟨(hmoves.isLive_cases hafter).resolve_right (Nat.ne_of_lt hgiven),
      hindex.trans hindex', hfile.trans hfile'⟩

/-! ### Visibilities -/

/-- Every number that was given out has a visibility. -/
def IsAligned (t : InfoTable) : Prop :=
  t.visibilities.length = t.origins.slots.length

/-- Every command keeps places and visibilities under the same numbers. -/
lemma IsAligned.step (h : t.IsAligned) (command : InfoCommand) :
    (t.step command).2.IsAligned := by
  cases command with
  | new index file => simpa [IsAligned, InfoTable.step, run, InfoTable.add, Origins.add] using h
  | clone source => simpa [IsAligned, InfoTable.step, run, InfoTable.add, Origins.add] using h
  | drop target => simpa [IsAligned, InfoTable.step, run, Origins.drop] using h
  | change target change => simpa [IsAligned, InfoTable.step, run] using h
  | copyVisibility target source => simpa [IsAligned, InfoTable.step, run] using h
  | setParent child parent =>
    cases hset : t.origins.setParent child parent with
    | error error =>
      have hstep : t.step (.setParent child parent) = (some error, t) := by
        simp only [InfoTable.step, run, hset]
        rfl
      rw [hstep]
      exact h
    | ok origins =>
      have hstep : t.step (.setParent child parent) = (none, { t with origins }) := by
        simp only [InfoTable.step, run, hset]
        rfl
      rw [hstep]
      exact h.trans (length_slots_setParent hset).symm

/-- Every run keeps places and visibilities under the same numbers. -/
lemma Run.isAligned (h : Run t history t') (ht : t.IsAligned) : t'.IsAligned := by
  induction h with
  | done => exact ht
  | next _ _ ih => exact ih (ht.step _)

/-! ### Copies -/

/-- Copying a place adds one. -/
lemma moves_clone (hforest : t.origins.IsForest) {source : Nat}
    (hsource : t.origins.IsLive source) :
    t.origins.Moves (.clone source, none) (t.step (.clone source)).2.origins :=
  moves_step hforest (by simpa [InfoCommand.operands])

/-- What the copied place has in effect becomes the copy's own. -/
lemma get?_clone (t : InfoTable) (source : Nat) :
    (t.step (.clone source)).2.origins.get? t.origins.slots.length =
      some (t.origins.copyOf source) :=
  (get?_add _).trans (if_pos rfl)

/-- What a copy has of its own. -/
lemma own_clone (t : InfoTable) (source : Nat) :
    (t.step (.clone source)).2.origins.ownIndex t.origins.slots.length = t.origins.index source ∧
      (t.step (.clone source)).2.origins.ownFile t.origins.slots.length =
        t.origins.file source := by
  rw [ownIndex, ownFile, get?_clone]
  exact ⟨rfl, rfl⟩

/-- A copy stands where the copied place stands, without a link and with the same visibility. -/
lemma view?_clone (hforest : t.origins.IsForest) (haligned : t.IsAligned) {source : Nat}
    (hsource : t.origins.IsLive source) :
    (t.step (.clone source)).2.view? t.origins.slots.length =
      some ⟨t.origins.index source, t.origins.file source, false, t.visibility source⟩ := by
  have hget := get?_clone t source
  have hlink : (t.step (.clone source)).2.origins.link? t.origins.slots.length = none := by
    rw [link?, hget]
    rfl
  have hlinked : (t.step (.clone source)).2.origins.isLinked t.origins.slots.length = false := by
    rw [isLinked, hget]
    rfl
  have hvisibility : (t.step (.clone source)).2.visibility t.origins.slots.length =
      t.visibility source := by
    show ((t.visibilities ++ [t.visibility source])[t.origins.slots.length]?).getD {} = _
    rw [← haligned, List.getElem?_concat_length]
    rfl
  obtain ⟨hindex, hfile⟩ :=
    (hforest.of_moves (moves_clone hforest hsource)).effective_of_top (isLive_of_get? hget) hlink
  obtain ⟨hownIndex, hownFile⟩ := own_clone t source
  rw [view?, hget, Option.map_some, hindex, hfile, hownIndex, hownFile, hlinked, hvisibility]

/-- The links of a copy are set after it was made. -/
lemma Run.link?_clone {later : List InfoEntry} {source : Nat} (hpast : Tracks history t.origins)
    (hsource : t.origins.IsLive source) (hlater : Run (t.step (.clone source)).2 later t')
    (hlive : t'.origins.IsLive t.origins.slots.length) (parent : Nat) :
    t'.origins.link? t.origins.slots.length = some parent ↔
      (.setParent t.origins.slots.length parent, none) ∈ later := by
  have hclone : Run t ((.clone source, none) :: later) t' :=
    .next (by simpa [InfoCommand.operands]) hlater
  have hbefore : (.setParent t.origins.slots.length parent, none) ∉ history :=
    fun hmem => Nat.lt_irrefl _ (hpast.given hmem)
  rw [(hclone.tracks hpast).recorded hlive parent]
  simp [hbefore]

/-- A copy is a lasting snapshot.  In every run, a copy of a place starts where the place stands at
that moment, with its visibility and without a link.  However the run goes on, as long as the copy
is there and is not linked itself, it stays where it is, whatever is dropped, linked or changed
elsewhere; and once it is linked, only an index or a file that it lacks is taken from the parent. -/
theorem clone_lasts (hrun : Run .empty history t) {source : Nat}
    (hsource : t.origins.IsLive source) :
    (t.step (.clone source)).2.view? t.origins.slots.length =
        some ⟨t.origins.index source, t.origins.file source, false, t.visibility source⟩ ∧
      ∀ later t', Run (t.step (.clone source)).2 later t' →
        t'.origins.IsLive t.origins.slots.length →
        ((∀ parent, (.setParent t.origins.slots.length parent, none) ∉ later) →
          t'.origins.index t.origins.slots.length = t.origins.index source ∧
            t'.origins.file t.origins.slots.length = t.origins.file source) ∧
        ∀ parent, (.setParent t.origins.slots.length parent, none) ∈ later →
          t'.origins.index t.origins.slots.length =
              (if t.origins.index source = 0 then t'.origins.index parent
                else t.origins.index source) ∧
            t'.origins.file t.origins.slots.length =
              (t.origins.file source).or (t'.origins.file parent) := by
  have hpast : Tracks history t.origins := hrun.tracks tracks_empty
  refine ⟨view?_clone hpast.forest (hrun.isAligned rfl) hsource, ?_⟩
  intro later t' hlater hlive
  have hmoves := moves_clone hpast.forest hsource
  have hforest := hpast.forest.of_moves hmoves
  have hgiven : t.origins.slots.length < (t.step (.clone source)).2.origins.slots.length := by
    show _ < (t.origins.slots ++ [some (t.origins.copyOf source)]).length
    rw [List.length_append, List.length_singleton]
    exact Nat.lt_succ_self _
  obtain ⟨-, hindex, hfile⟩ := hlater.own_eq hforest hgiven hlive
  obtain ⟨hindex', hfile'⟩ := own_clone t source
  have hforest' := (hlater.tracks (hpast.of_moves hmoves)).forest
  have hlink := hlater.link?_clone hpast hsource hlive
  rw [hindex'] at hindex
  rw [hfile'] at hfile
  constructor
  · intro hnever
    have hnone : t'.origins.link? t.origins.slots.length = none :=
      Option.eq_none_iff_forall_ne_some.2 fun parent h => hnever parent ((hlink parent).1 h)
    rw [← hindex, ← hfile]
    exact hforest'.effective_of_top hlive hnone
  · intro parent hmem
    rw [← hindex, ← hfile]
    exact hforest'.effective_of_link ((hlink parent).2 hmem)

/-- A place that has its index from its parent, and is hidden once. -/
def heirHistory : List InfoEntry :=
  [(.new 9 none, none), (.new 0 none, none), (.setParent 1 0, none), (.change 1 .addBlock, none)]

/-- The table after these commands. -/
def heirTable : InfoTable :=
  ⟨⟨[some ⟨9, none, none⟩, some ⟨0, none, some 0⟩]⟩, [{}, { blocks := some 1 }]⟩

/-- The parent is removed, and the copy of its child is linked to another place. -/
def adoption : List InfoEntry :=
  [(.drop 0, none), (.new 5 (some ⟨"main", "", ""⟩), none), (.setParent 2 3, none)]

/-- The table with the copy, once the parent is gone. -/
def orphanTable : InfoTable :=
  ⟨⟨[none, some ⟨0, none, some 0⟩, some ⟨9, none, none⟩]⟩,
    [{}, { blocks := some 1 }, { blocks := some 1 }]⟩

/-- The table after the copy was linked. -/
def adoptionTable : InfoTable :=
  ⟨⟨[none, some ⟨0, none, some 0⟩, some ⟨9, none, some 3⟩, some ⟨5, some ⟨"main", "", ""⟩, none⟩]⟩,
    [{}, { blocks := some 1 }, { blocks := some 1 }, {}]⟩

/-- The copied place loses its index with its parent, and the copy keeps it, also when it is linked
to a place with another index; the file is filled in. -/
theorem clone_lasts_adoption :
    Run .empty heirHistory heirTable ∧
      (heirTable.step (.clone 1)).2.view? 2 = some ⟨9, none, false, { blocks := some 1 }⟩ ∧
      orphanTable.origins.index 1 = 0 ∧ orphanTable.origins.index 2 = 9 ∧
      adoptionTable.origins.index 2 = 9 ∧
      adoptionTable.origins.file 2 = some ⟨"main", "", ""⟩ := by
  have hrun : Run .empty heirHistory heirTable :=
    .next (by decide) <| .next (by decide) <| .next (by decide) <| .next (by decide) .done
  have horphan : Run (heirTable.step (.clone 1)).2 [(.drop 0, none)] orphanTable :=
    .next (by decide) .done
  have hadoption : Run (heirTable.step (.clone 1)).2 adoption adoptionTable :=
    .next (by decide) <| .next (by decide) <| .next (by decide) .done
  have hsource : heirTable.origins.IsLive 1 := by decide
  obtain ⟨hview, hlater⟩ := clone_lasts hrun hsource
  obtain ⟨hstays, -⟩ := hlater _ _ horphan (by decide)
  obtain ⟨-, hlinked⟩ := hlater _ _ hadoption (by decide)
  exact ⟨hrun, hview, by decide, (hstays (by simp)).1, hlinked 3 (by decide)⟩

end InfoTable

end Cascade
