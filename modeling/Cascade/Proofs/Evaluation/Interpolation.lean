import Mathlib.Logic.Relation
import Cascade.Proofs.Evaluation.Lookup
import Cascade.Proofs.Evaluation.Nesting
import Cascade.Proofs.Text.Refill

/-!
# Strings that are filled in again and again

The placeholders of a string are filled in, and the text that comes out is read anew, until it
stays the same.  Evaluating a string comes to an end exactly if this does after finitely many
passes, with an error or with a text that a pass leaves as it is (`Scope.settles_iff`).

That each single placeholder can be filled in is not enough for that: the names of the variables
are not being resolved any more when the next pass begins, so that two variables whose texts are
placeholders for each other are filled in for ever (`interpolation_endless_turnsTexts`).  It is
enough if the names can be ranked such that the text for a placeholder has placeholders of lower
ranks only and no other at signs (`Scope.FillsEnd.settles`): then each pass lowers the highest rank,
unless it completes a placeholder around an at sign of the string itself, of which there are
finitely many.
-/

namespace Cascade

/-! ### Evaluations at growing depths -/

namespace Scoped

variable {α β : Type} {s : Scope} {q : Queries}

/-- One step after the other goes deeper if both do. -/
lemma Below.bind {x y : Scoped α} {f g : α → Scoped β} (hxy : x.Below y)
    (hfg : ∀ a, (f a).Below (g a)) : (x >>= f).Below (y >>= g) := by
  intro s q hne
  rw [Correspondence.bind_apply] at hne
  rw [Correspondence.bind_apply, Correspondence.bind_apply]
  cases hx : (x s q).result with
  | error halt =>
    have hfirst : (x s q).result ≠ .error .exhausted := by
      simpa [hx] using hne
    rw [hxy s q hfirst, hx]
  | ok a =>
    have hsecond : (f a s (x s q).queries).result ≠ .error .exhausted := by
      simpa only [hx] using hne
    rw [hxy s q (by simp [hx]), hx]
    simp only [hfg a s _ hsecond]

/-- An evaluation whose error is looked at goes deeper if the evaluation does. -/
lemma Below.attempt {x y : Scoped α} (hxy : x.Below y) :
    (Evaluation.attempt x : Scoped _).Below (Evaluation.attempt y) := by
  intro s q hne
  have hx : (x s q).result ≠ .error .exhausted := by
    intro hx
    refine hne ?_
    simp [Evaluation.attempt, Eval.attempt, hx]
  simp only [Evaluation.attempt, Eval.attempt, hxy s q hx]

/-- Evaluations one after the other go deeper if each does. -/
lemma Below.runEach {ι : Type} {x y : ι → Scoped α} (hxy : ∀ i, (x i).Below (y i)) (l : List ι) :
    (Evaluation.runEach (l.map x) : Scoped _).Below (Evaluation.runEach (l.map y)) := by
  induction l with
  | nil => exact fun _ _ _ => rfl
  | cons i l ih => exact (hxy i).bind fun a => ih.bind fun as => fun _ _ _ => rfl

/-- Evaluations at growing depths end with an outcome: from some depth on they have it, and it is
not that the depth was too small. -/
structure EndsIn (x : Nat → Scoped α) (s : Scope) (q : Queries) (outcome : Outcome α) : Prop where
  finished : outcome.result ≠ .error .exhausted
  eventually : ∃ depth, ∀ depth' ≥ depth, x depth' s q = outcome

/-- A depth that is enough. -/
lemma endsIn_of_below {x : Nat → Scoped α} (hx : ∀ depth depth', depth ≤ depth' →
    (x depth).Below (x depth')) {depth : Nat} (h : (x depth s q).result ≠ .error .exhausted) :
    EndsIn x s q (x depth s q) :=
  ⟨h, depth, fun _ hle => hx _ _ hle s q h⟩

namespace EndsIn

variable {x : Nat → Scoped α} {f : Nat → α → Scoped β} {first : Outcome α}

/-- The outcome is reached at a depth beyond any other one. -/
lemma exists_ge (h : EndsIn x s q first) (least : Nat) : ∃ depth ≥ least, x depth s q = first := by
  obtain ⟨depth, heventually⟩ := h.eventually
  exact ⟨max least depth, Nat.le_max_left _ _, heventually _ (Nat.le_max_right _ _)⟩

/-- There is one outcome only. -/
lemma unique (h : EndsIn x s q first) {second : Outcome α} (h' : EndsIn x s q second) :
    first = second := by
  obtain ⟨depth, heventually⟩ := h.eventually
  obtain ⟨depth', hge, hsecond⟩ := h'.exists_ge depth
  rw [← heventually depth' hge, hsecond]

/-- The first depths do not matter. -/
lemma of_succ (h : EndsIn (fun depth => x (depth + 1)) s q first) : EndsIn x s q first := by
  obtain ⟨depth, heventually⟩ := h.eventually
  refine ⟨h.finished, depth + 1, fun depth' hge => ?_⟩
  obtain ⟨before, rfl⟩ := Nat.exists_eq_add_of_le' (Nat.le_of_add_left_le hge)
  exact heventually before (Nat.le_of_succ_le_succ hge)

/-- A value that is known. -/
lemma pure (a : α) : EndsIn (fun _ => Pure.pure a) s q ⟨.ok a, q, none⟩ :=
  ⟨nofun, 0, fun _ _ => rfl⟩

/-- A stop at the first step. -/
lemma bind_of_error (h : EndsIn x s q first) {halt : Halt} (hresult : first.result = .error halt) :
    EndsIn (fun depth => x depth >>= f depth) s q
      ⟨.error halt, first.queries, first.marker⟩ := by
  obtain ⟨depth, heventually⟩ := h.eventually
  refine ⟨fun hhalt => h.finished ?_, depth, fun depth' hge => ?_⟩
  · rw [hresult, Except.error.inj hhalt]
  · rw [Correspondence.bind_apply, heventually depth' hge, hresult]

/-- Two steps. -/
lemma bind_of_ok (h : EndsIn x s q first) {a : α} (hresult : first.result = .ok a)
    {second : Outcome β} (h' : EndsIn (fun depth => f depth a) s first.queries second) :
    EndsIn (fun depth => x depth >>= f depth) s q
      ⟨second.result, second.queries, second.marker.or first.marker⟩ := by
  obtain ⟨depth, heventually⟩ := h.eventually
  obtain ⟨depth', heventually'⟩ := h'.eventually
  refine ⟨h'.finished, max depth depth', fun depth'' hge => ?_⟩
  have hfirst := heventually depth'' (Nat.le_trans (Nat.le_max_left _ _) hge)
  have hsecond := heventually' depth'' (Nat.le_trans (Nat.le_max_right _ _) hge)
  rw [Correspondence.bind_apply, hfirst, hresult]
  simp only [hsecond]

/-- An evaluation whose error is looked at always succeeds. -/
lemma attempt (h : EndsIn x s q first) :
    ∃ result second, EndsIn (fun depth => Evaluation.attempt (x depth)) s q second ∧
      second.result = .ok result ∧ second.queries = first.queries ∧
      ∀ a, result = .ok a ↔ first.result = .ok a := by
  obtain ⟨depth, heventually⟩ := h.eventually
  have hattempt : ∀ depth' ≥ depth, (Evaluation.attempt (x depth') : Scoped _) s q =
      Eval.attempt (fun _ => first) q := by
    intro depth' hge
    simp only [Evaluation.attempt, Eval.attempt, heventually depth' hge]
  cases hfirst : first.result with
  | ok a =>
    have hsecond :
        Eval.attempt (fun _ => first) q = ⟨.ok (.ok a), first.queries, first.marker⟩ := by
      simp only [Eval.attempt, hfirst]
    rw [hsecond] at hattempt
    refine ⟨.ok a, _, ⟨by simp, depth, hattempt⟩, rfl, rfl, fun b => ?_⟩
    rw [Except.ok.injEq, Except.ok.injEq]
  | error halt =>
    cases halt with
    | exhausted => exact absurd hfirst h.finished
    | failed error =>
      have hsecond : Eval.attempt (fun _ => first) q =
          ⟨.ok (.error error), first.queries, first.marker⟩ := by
        simp only [Eval.attempt, hfirst]
      rw [hsecond] at hattempt
      exact ⟨.error error, _, ⟨by simp, depth, hattempt⟩, rfl, rfl, by simp⟩

end EndsIn

end Scoped

/-! ### Passes over a text -/

namespace Resolver

/-- The evaluation that goes on with other nodes less than `depth` deep. -/
def upTo (depth : Nat) : Resolver Scoped :=
  ⟨Node.eval depth, Node.eval depth⟩

/-- A text with its placeholders filled in once. -/
def refill (resolve : Resolver Scoped) (text : String) : Scoped String := do
  let texts ← Evaluation.runAll ((Text.Piece.names (Text.pieces text)).map resolve.placeholder)
  pure (String.ofList (Text.Piece.fill (Text.pieces text) texts))

/-- A pass tries all placeholders first. -/
lemma refill_eq (resolve : Resolver Scoped) (text : String) :
    resolve.refill text =
      (Evaluation.runEach ((Text.Piece.names (Text.pieces text)).map fun name =>
          Evaluation.attempt (resolve.placeholder name)) >>= fun results =>
        Evaluation.ofExcept (results.mapM id)) >>= fun texts =>
      pure (String.ofList (Text.Piece.fill (Text.pieces text) texts)) := by
  rw [refill, Evaluation.runAll, List.map_map]
  rfl

/-- A string is filled in once, and again if its text has changed. -/
lemma string_eq (resolve : Resolver Scoped) (info : Info) (quote : Char) (text : String)
    (escaped : Bool) :
    resolve.string info quote text escaped =
      resolve.refill text >>= fun filled =>
        if filled = text then pure (.quoted info.snapshot quote text escaped)
        else resolve.body (.quoted info quote filled escaped) := by
  funext s q
  rw [string, refill]
  simp only [Correspondence.bind_apply]
  cases (Evaluation.runAll ((Text.Piece.names (Text.pieces text)).map resolve.placeholder)
    s q).result <;> rfl

/-- A placeholder is filled in with the value of a reference to a variable. -/
lemma placeholder_upTo_below {depth depth' : Nat} (h : depth ≤ depth') (name : String) :
    ((upTo depth).placeholder name).Below ((upTo depth').placeholder name) :=
  (Node.eval_below (Nat.succ_le_succ h) (.variableRef {} ("@" ++ name))).bind fun _ _ _ _ => rfl

/-- Passes at greater depths. -/
lemma refill_upTo_below {depth depth' : Nat} (h : depth ≤ depth') (text : String) :
    ((upTo depth).refill text).Below ((upTo depth').refill text) := by
  have heach := Scoped.Below.runEach (fun name => (placeholder_upTo_below h name).attempt)
    (Text.Piece.names (Text.pieces text))
  rw [refill_eq, refill_eq]
  exact (heach.bind fun _ _ _ _ => rfl).bind fun _ _ _ _ => rfl

end Resolver

/-- Evaluating a string one deeper is a pass over its text, and the evaluation of the string with
the new text if that is another one. -/
lemma Node.eval_quoted_succ (depth : Nat) (info : Info) (quote : Char) (text : String)
    (escaped : Bool) :
    (Node.eval (depth + 1) (.quoted info quote text escaped) : Scoped Node) =
      (Resolver.upTo depth).refill text >>= fun filled =>
        if filled = text then pure (.quoted info.snapshot quote text escaped)
        else Node.eval depth (.quoted info quote filled escaped) :=
  Resolver.string_eq (Resolver.upTo depth) info quote text escaped

namespace Scope

variable (s : Scope)

/-- A placeholder is filled in, with the given outcome. -/
def Fills (name : String) (q : Queries) (outcome : Outcome String) : Prop :=
  Scoped.EndsIn (fun depth => (Resolver.upTo depth).placeholder name) s q outcome

/-- The placeholders of a text are filled in once, with the given outcome. -/
def Refills (text : String) (q : Queries) (outcome : Outcome String) : Prop :=
  Scoped.EndsIn (fun depth => (Resolver.upTo depth).refill text) s q outcome

/-- Filling in a text comes to an end after finitely many passes: one of them fails, or leaves the
text as it is. -/
inductive Settles : String → Queries → Prop where
  | failed {text : String} {q : Queries} {outcome : Outcome String} {halt : Halt}
    (hpass : s.Refills text q outcome) (hresult : outcome.result = .error halt) : Settles text q
  | unchanged {text : String} {q : Queries} {outcome : Outcome String}
    (hpass : s.Refills text q outcome) (hresult : outcome.result = .ok text) : Settles text q
  | changed {text filled : String} {q : Queries} {outcome : Outcome String}
    (hpass : s.Refills text q outcome) (hresult : outcome.result = .ok filled)
    (hne : filled ≠ text) (hrest : Settles filled outcome.queries) : Settles text q

variable {s} {text : String} {q : Queries}

/-- A string is evaluated to the end if filling it in comes to an end. -/
lemma Settles.endsIn (h : s.Settles text q) (info : Info) (quote : Char) (escaped : Bool) :
    ∃ outcome, Scoped.EndsIn (fun depth => Node.eval depth (.quoted info quote text escaped)) s q
      outcome := by
  -- a pass and what follows it
  have hstep : ∀ {text q outcome}, Scoped.EndsIn (fun depth =>
      (Resolver.upTo depth).refill text >>= fun filled =>
        if filled = text then pure (.quoted info.snapshot quote text escaped)
        else Node.eval depth (.quoted info quote filled escaped)) s q outcome →
      ∃ outcome, Scoped.EndsIn (fun depth => Node.eval depth (.quoted info quote text escaped)) s q
        outcome :=
    fun hends => ⟨_, .of_succ (by simpa only [Node.eval_quoted_succ] using hends)⟩
  induction h with
  | failed hpass hresult => exact hstep (hpass.bind_of_error hresult)
  | @unchanged text q outcome hpass hresult =>
    have hsame := Scoped.EndsIn.pure (Node.quoted info.snapshot quote text escaped) (s := s)
      (q := outcome.queries)
    exact hstep (hpass.bind_of_ok hresult (by simpa only [if_true] using hsame))
  | changed hpass hresult hne _ ih =>
    obtain ⟨outcome, hrest⟩ := ih
    exact hstep (hpass.bind_of_ok hresult (by simpa only [if_neg hne] using hrest))

/-- A string is evaluated to the end at some depth exactly if filling it in comes to an end.  From
left to right the induction is on the passes, from right to left on the depth. -/
theorem settles_iff (info : Info) (quote : Char) (escaped : Bool) :
    s.Settles text q ↔ ∃ depth, ((Node.eval depth (.quoted info quote text escaped) : Scoped Node)
      s q).result ≠ .error .exhausted := by
  constructor
  · intro h
    obtain ⟨outcome, hends⟩ := h.endsIn info quote escaped
    obtain ⟨depth, -, hdepth⟩ := hends.exists_ge 0
    refine ⟨depth, ?_⟩
    rw [hdepth]
    exact hends.finished
  · rintro ⟨depth, hends⟩
    induction depth generalizing text q with
    | zero => exact absurd rfl hends
    | succ depth ih =>
      rw [Node.eval_quoted_succ] at hends
      have hfinished : ((Resolver.upTo depth).refill text s q).result ≠ .error .exhausted :=
        fun hexhausted => hends (Scoped.result_bind_of_error hexhausted)
      have hpass : s.Refills text q ((Resolver.upTo depth).refill text s q) :=
        Scoped.endsIn_of_below (fun _ _ hle => Resolver.refill_upTo_below hle text) hfinished
      cases hresult : ((Resolver.upTo depth).refill text s q).result with
      | error halt => exact .failed hpass hresult
      | ok filled =>
        by_cases hne : filled = text
        · exact .unchanged hpass (hresult.trans (congrArg _ hne))
        · refine .changed hpass hresult hne (ih fun hexhausted => hends ?_)
          refine Scoped.result_bind_of_ok hresult ?_
          rwa [if_neg hne]

/-! ### Texts that can be ranked -/

variable (s) in
/-- The states of the query conditions between placeholders that are filled in. -/
def Develops : Queries → Queries → Prop :=
  Relation.ReflTransGen fun q q' =>
    ∃ name outcome, Text.IsPlaceholderName name ∧ s.Fills name q outcome ∧ outcome.queries = q'

variable (s) in
/-- Every single placeholder can be filled in, or fails. -/
def FillsEnd (q : Queries) : Prop :=
  ∀ q' name, s.Develops q q' → Text.IsPlaceholderName name → ∃ outcome, s.Fills name q' outcome

variable (s) in
/-- A text that a placeholder is filled in with. -/
def MayFill (q : Queries) (name text : String) : Prop :=
  ∃ q' outcome, s.Develops q q' ∧ Text.IsPlaceholderName name ∧ s.Fills name q' outcome ∧
    outcome.result = .ok text

variable (s) in
/-- The texts for placeholders have placeholders of lower ranks only, and no other at signs. -/
def RanksFills (rank : String → Nat) (q : Queries) : Prop :=
  ∀ name text, s.MayFill q name text → Text.RanksBelow rank (rank name) text

/-- More can be filled in earlier. -/
lemma MayFill.of_develops {q' : Queries} {name text : String} (hdevelops : s.Develops q q')
    (h : s.MayFill q' name text) : s.MayFill q name text := by
  obtain ⟨q'', outcome, hmore, hfill⟩ := h
  exact ⟨q'', outcome, hdevelops.trans hmore, hfill⟩

/-- Texts stay ranked. -/
lemma RanksFills.develops {rank : String → Nat} {q' : Queries} (h : s.RanksFills rank q)
    (hdevelops : s.Develops q q') : s.RanksFills rank q' :=
  fun name text hfill => h name text (hfill.of_develops hdevelops)

namespace FillsEnd

/-- Placeholders can be filled in later as well. -/
lemma develops {q' : Queries} (h : s.FillsEnd q) (hdevelops : s.Develops q q') : s.FillsEnd q' :=
  fun q'' name hmore hname => h q'' name (hdevelops.trans hmore) hname

/-- All placeholders of a text are tried, one after the other. -/
lemma attemptEach (h : s.FillsEnd q) {names : List String}
    (hnames : ∀ name ∈ names, Text.IsPlaceholderName name) :
    ∃ results outcome, Scoped.EndsIn (fun depth => Evaluation.runEach
        (names.map fun name => Evaluation.attempt ((Resolver.upTo depth).placeholder name))) s q
        outcome ∧
      outcome.result = .ok results ∧ s.Develops q outcome.queries ∧
      ∀ text, .ok text ∈ results → ∃ name ∈ names, s.MayFill q name text := by
  induction names generalizing q with
  | nil => exact ⟨[], _, .pure [], rfl, .refl, nofun⟩
  | cons name names ih =>
    obtain ⟨hname, hnames⟩ := List.forall_mem_cons.1 hnames
    obtain ⟨first, hfirst⟩ := h q name .refl hname
    have hstep : s.Develops q first.queries := .single ⟨name, first, hname, hfirst, rfl⟩
    obtain ⟨result, second, hattempt, hresult, hqueries, htext⟩ := hfirst.attempt
    rw [← hqueries] at hstep
    obtain ⟨results, others, hrest, hresults, hdevelops, htexts⟩ := ih (h.develops hstep) hnames
    refine ⟨result :: results, _, hattempt.bind_of_ok hresult
      (hrest.bind_of_ok hresults (.pure (result :: results))), rfl, hstep.trans hdevelops, ?_⟩
    intro text htextMem
    rcases List.mem_cons.1 htextMem with heq | htextMem
    · exact ⟨name, List.mem_cons_self, q, first, .refl, hname, hfirst, (htext text).1 heq.symm⟩
    · obtain ⟨other, hother, hfill⟩ := htexts text htextMem
      exact ⟨other, List.mem_cons_of_mem _ hother, hfill.of_develops hstep⟩

/-- A pass over a text comes to an end, and the texts it puts in are such as placeholders of the
text are filled in with. -/
lemma refills (h : s.FillsEnd q) (text : String) :
    ∃ outcome, s.Refills text q outcome ∧ s.Develops q outcome.queries ∧
      ∀ filled, outcome.result = .ok filled →
        ∃ texts, (∀ new ∈ texts, ∃ old ∈ Text.Piece.names (Text.pieces text), s.MayFill q old new) ∧
          filled = String.ofList (Text.Piece.fill (Text.pieces text) texts) := by
  have hnames : ∀ name ∈ Text.Piece.names (Text.pieces text), Text.IsPlaceholderName name :=
    fun name hname => Text.isPlaceholderName_of_mem hname
  obtain ⟨results, tried, htried, hresults, hdevelops, htexts⟩ := h.attemptEach hnames
  simp only [Refills, Resolver.refill_eq]
  cases hall : results.mapM id with
  | error error =>
    have hfails : Scoped.EndsIn (fun _ => (Evaluation.ofExcept (results.mapM id) :
        Scoped (List String))) s tried.queries ⟨.error (.failed error), tried.queries, none⟩ :=
      ⟨by simp, 0, fun _ _ => by rw [hall]; rfl⟩
    exact ⟨_, (htried.bind_of_ok hresults hfails).bind_of_error rfl, hdevelops, nofun⟩
  | ok texts =>
    have hends : Scoped.EndsIn (fun _ => (Evaluation.ofExcept (results.mapM id) :
        Scoped (List String))) s tried.queries ⟨.ok texts, tried.queries, none⟩ :=
      ⟨by simp, 0, fun _ _ => by rw [hall]; rfl⟩
    refine ⟨_, (htried.bind_of_ok hresults hends).bind_of_ok rfl (.pure _), hdevelops, ?_⟩
    intro filled hfilled
    refine ⟨texts, fun new hnew => htexts new ?_, (Except.ok.inj hfilled).symm⟩
    rw [except_mapM_id_eq_ok_iff.1 hall]
    exact List.mem_map_of_mem hnew

/-- Texts that can be ranked are filled in finitely often: each pass lowers the number of plain at
signs, or keeps it and lowers the ranks of the placeholders. -/
theorem settles {q : Queries} {rank : String → Nat} (h : s.FillsEnd q)
    (hrank : s.RanksFills rank q) (text : String) : s.Settles text q := by
  obtain ⟨outcome, hpass, hdevelops, htexts⟩ := h.refills text
  cases hresult : outcome.result with
  | error halt => exact .failed hpass hresult
  | ok filled =>
    by_cases hne : filled = text
    · exact .unchanged hpass (hresult.trans (congrArg _ hne))
    · obtain ⟨texts, hfills, hfilled⟩ := htexts filled hresult
      have hranks : ∀ new ∈ texts, ∃ old ∈ Text.Piece.names (Text.pieces text),
          Text.RanksBelow rank (rank old) new := by
        intro new hnew
        obtain ⟨old, hold, hfill⟩ := hfills new hnew
        exact ⟨old, hold, hrank old new hfill⟩
      have hlower := Text.decreases_of_fill hranks hfilled hne
      exact .changed hpass hresult hne
        (settles (h.develops hdevelops) (hrank.develops hdevelops) filled)
termination_by (Text.strays text, Text.height rank text)
decreasing_by exact Prod.lex_iff.2 hlower

end FillsEnd

end Scope

/-- The evaluation of a string ends exactly if filling it in comes to an end after finitely many
passes, with an error or with a text that a pass leaves as it is.  It does if every single
placeholder can be filled in and the names of placeholders can be ranked, such that the texts for a
placeholder have placeholders of lower ranks only and no other at signs. -/
theorem Context.interpolation_ends (c : Context) (info : Info) (quote : Char) (text : String)
    (escaped : Bool) :
    ((∃ depth, (c.evaluate depth (.quoted info quote text escaped)).1 ≠ .error .exhausted) ↔
      c.scope.Settles text c.queries) ∧
    (c.scope.FillsEnd c.queries → (∃ rank, c.scope.RanksFills rank c.queries) →
      c.scope.Settles text c.queries) := by
  constructor
  · rw [Scope.settles_iff info quote escaped]
    simp only [Context.evaluate_eq]
  · rintro hends ⟨rank, hrank⟩
    exact hends.settles hrank text

/-! ### Variables that hold plain texts -/

namespace Context

/-- The declaration of a variable that holds a text. -/
def textRule (entry : String × String) : Node :=
  .declaration {} (.literal ("@" ++ entry.1)) (.anonymous {} entry.2 false false)
    { isVariable := true }

/-- A context with variables that hold texts, under their names without the at sign. -/
def ofTexts (entries : List (String × String)) : Context :=
  { frames := [.mk (some (.ofRules [] (entries.map textRule))) none] }

variable (entries : List (String × String)) (name : String)

/-- The rules are searched for a name as the entries are. -/
lemma findSome?_textRule :
    (entries.map textRule).findSome? (Node.bindingOf? ("@" ++ name)) =
      (entries.lookup name).map fun text => (.anonymous {} text false false, "") := by
  induction entries with
  | nil => rfl
  | cons entry entries ih =>
    obtain ⟨key, text⟩ := entry
    have hkey : ("@" ++ key == "@" ++ name) = (name == key) := by
      rw [Bool.eq_iff_iff, beq_iff_eq, beq_iff_eq, String.append_right_inj, eq_comm]
    rw [List.map_cons, List.findSome?_cons, List.lookup_cons, textRule, Node.bindingOf?, hkey,
      ih]
    cases name == key <;> rfl

/-- The last entry of a name counts. -/
lemma lookup?_ofTexts :
    Frame.lookup? ("@" ++ name) (ofTexts entries).frames =
      (entries.reverse.lookup name).map fun text =>
        ⟨.anonymous {} text false false, "", (ofTexts entries).frames⟩ := by
  have hdeclared : (Frame.mk (some (.ofRules [] (entries.map textRule))) none).declared?
      ("@" ++ name) =
        (entries.reverse.lookup name).map fun text => (.anonymous {} text false false, "") := by
    rw [← findSome?_textRule, List.map_reverse]
    rfl
  rw [ofTexts, Frame.lookup?_cons, hdeclared]
  cases entries.reverse.lookup name <;> rfl

end Context

/-- The name of a placeholder is referred to directly. -/
lemma Resolver.reference_of_isPlaceholderName {name : String} (h : Text.IsPlaceholderName name)
    (resolve : Resolver Scoped) :
    resolve.reference ("@" ++ name) = resolve.binding ("@" ++ name) := by
  obtain ⟨hne, hname⟩ := h
  obtain ⟨c, cs, hcs⟩ := List.exists_cons_of_ne_nil hne
  have hc : c ≠ '@' := by
    rintro rfl
    have hat := hname '@' (by rw [hcs]; exact List.mem_cons_self)
    simp [Text.Piece.isNameChar_at] at hat
  have hsigns : atSigns ("@" ++ name) = 1 := by
    rw [atSigns, String.toList_append, hcs]
    simp [hc]
  rw [reference, hsigns]
  rfl

/-- A plain text is printed as it is. -/
lemma Node.css_anonymous (q : Queries) (style : Style) (info : Info) (text : String)
    (mapLines rulesetLike : Bool) :
    (Node.anonymous info text mapLines rulesetLike).css q style = .ok text := by
  show ((if text = "" then Printer.empty else Printer.chunk text info.file _ :
    Style → Rendering) style).text = _
  split
  next hempty => rw [hempty]; rfl
  · change Except.ok (String.join [text]) = _
    simp [String.join]

namespace Context

variable {entries : List (String × String)}

/-- A placeholder is filled in with the text of its variable. -/
lemma fills_ofTexts (entries : List (String × String)) {name : String}
    (h : Text.IsPlaceholderName name) (q : Queries) :
    (ofTexts entries).scope.Fills name q
      ⟨match entries.reverse.lookup name with
        | some text => .ok text
        | none => .error (.failed (.undefinedVariable ("@" ++ name))), q, none⟩ := by
  refine ⟨by cases entries.reverse.lookup name <;> simp, 1, fun depth hge => ?_⟩
  obtain ⟨before, rfl⟩ := Nat.exists_eq_add_of_le' hge
  have hlookup : Frame.lookup? ("@" ++ name) (ofTexts entries).scope.frames = _ :=
    lookup?_ofTexts entries name
  rw [Resolver.placeholder, Resolver.reference_of_isPlaceholderName h, Correspondence.bind_apply,
    Resolver.binding_apply List.not_mem_nil, Resolver.lookup, hlookup]
  cases entries.reverse.lookup name with
  | none => rfl
  | some text =>
    show Outcome.mk ((Node.anonymous ({} : Info).snapshot text false false).css q _) q none = _
    rw [Node.css_anonymous]

/-- Every single placeholder is filled in, or its variable is missing. -/
lemma fillsEnd_ofTexts (q : Queries) : (ofTexts entries).scope.FillsEnd q :=
  fun q' _ _ hname => ⟨_, fills_ofTexts entries hname q'⟩

/-- A placeholder is filled in with no other text. -/
lemma lookup_of_mayFill {q : Queries} {name text : String}
    (h : (ofTexts entries).scope.MayFill q name text) :
    entries.reverse.lookup name = some text := by
  obtain ⟨q', outcome, -, hname, hfills, hresult⟩ := h
  rw [hfills.unique (fills_ofTexts entries hname q')] at hresult
  cases htext : entries.reverse.lookup name with
  | none => simp [htext] at hresult
  | some found =>
    simp only [htext] at hresult
    rw [Except.ok.inj hresult]

/-- A pass over one placeholder only. -/
lemma refills_ofTexts {text name new : String} (hpieces : Text.pieces text = [.placeholder name])
    (hnew : entries.reverse.lookup name = some new) (q : Queries) :
    (ofTexts entries).scope.Refills text q ⟨.ok new, q, none⟩ := by
  have hname : Text.IsPlaceholderName name := by
    have hmem : name ∈ Text.Piece.names (Text.pieces text) := by
      rw [hpieces]
      exact List.mem_singleton_self name
    exact Text.isPlaceholderName_of_mem hmem
  obtain ⟨least, hfills⟩ := (fills_ofTexts entries hname q).eventually
  simp only [hnew] at hfills
  refine ⟨by simp, least, fun depth hge => ?_⟩
  have hattempt : (Evaluation.attempt ((Resolver.upTo depth).placeholder name) : Scoped _)
      (ofTexts entries).scope q = ⟨.ok (.ok new), q, none⟩ := by
    simp only [Evaluation.attempt, Eval.attempt, hfills depth hge]
  have heach : (Evaluation.runEach [Evaluation.attempt ((Resolver.upTo depth).placeholder name)] :
      Scoped _) (ofTexts entries).scope q = ⟨.ok [.ok new], q, none⟩ := by
    rw [Correspondence.runEach_cons_apply, hattempt]
    rfl
  have hfilled : String.ofList (Text.Piece.fill [.placeholder name] [new]) = new := by
    simp [Text.Piece.fill]
  rw [Resolver.refill_eq, hpieces]
  change ((Evaluation.runEach [Evaluation.attempt ((Resolver.upTo depth).placeholder name)] >>=
    fun results => Evaluation.ofExcept (results.mapM id)) >>= fun texts =>
      pure (String.ofList (Text.Piece.fill [.placeholder name] texts)) : Scoped String) _ q = _
  rw [Correspondence.bind_apply, Correspondence.bind_apply, heach]
  exact congrArg (fun filled => Outcome.mk (.ok filled) q none) hfilled

/-- Texts are ranked if each is ranked below its name. -/
lemma ranksFills_ofTexts {rank : String → Nat}
    (h : ∀ entry ∈ entries, Text.RanksBelow rank (rank entry.1) entry.2) (q : Queries) :
    (ofTexts entries).scope.RanksFills rank q := by
  intro name text hfill
  obtain ⟨before, after, hentries, -⟩ := List.lookup_eq_some_iff.1 (lookup_of_mayFill hfill)
  refine h (name, text) (List.mem_reverse.1 ?_)
  rw [hentries]
  exact List.mem_append_right _ List.mem_cons_self

end Context

/-- A text, a name for it, and a text that refers to it. -/
def sizeTexts : Context :=
  .ofTexts [("size", "large"), ("kind", "size"), ("ref", "a @\x7bsize\x7d one")]

/-- A placeholder whose name is filled in first, and one for a text with a placeholder. -/
theorem interpolation_ends_sizeTexts :
    (sizeTexts.scope.FillsEnd sizeTexts.queries ∧
      sizeTexts.scope.RanksFills (fun name => if name = "ref" then 1 else 0) sizeTexts.queries) ∧
    sizeTexts.scope.Settles "@\x7b@\x7bkind\x7d\x7d, @\x7bref\x7d" sizeTexts.queries ∧
    ∃ depth, (sizeTexts.evaluate depth
      (.quoted {} '"' "@\x7b@\x7bkind\x7d\x7d, @\x7bref\x7d" false)).1 ≠ .error .exhausted := by
  have hends : sizeTexts.scope.FillsEnd sizeTexts.queries := Context.fillsEnd_ofTexts _
  have hranks : sizeTexts.scope.RanksFills (fun name => if name = "ref" then 1 else 0)
      sizeTexts.queries := Context.ranksFills_ofTexts (by decide +kernel) _
  obtain ⟨hiff, hsettles⟩ := sizeTexts.interpolation_ends {} '"'
    "@\x7b@\x7bkind\x7d\x7d, @\x7bref\x7d" false
  have hsettled := hsettles hends ⟨_, hranks⟩
  exact ⟨⟨hends, hranks⟩, hsettled, hiff.2 hsettled⟩

/-- Two variables whose texts are placeholders for each other. -/
def turnsTexts : Context :=
  .ofTexts [("a", "@\x7bb\x7d"), ("b", "@\x7ba\x7d")]

/-- Every single placeholder can be filled in, and yet no depth is enough for a string with one of
the two placeholders, and no error is reported: it is filled in with the other one again and
again. -/
theorem interpolation_endless_turnsTexts :
    turnsTexts.scope.FillsEnd turnsTexts.queries ∧
      ¬ ∃ depth, (turnsTexts.evaluate depth (.quoted {} '"' "@\x7ba\x7d" false)).1 ≠
        .error .exhausted := by
  refine ⟨Context.fillsEnd_ofTexts _, ?_⟩
  simp only [Context.evaluate_eq, ← Scope.settles_iff]
  have hpass : ∀ {text q outcome}, text ∈ ["@\x7ba\x7d", "@\x7bb\x7d"] →
      turnsTexts.scope.Refills text q outcome →
      ∃ other ∈ ["@\x7ba\x7d", "@\x7bb\x7d"], other ≠ text ∧ outcome.result = .ok other := by
    intro text q outcome htext hpass
    simp only [List.mem_cons, List.not_mem_nil, or_false] at htext
    rcases htext with rfl | rfl
    · have hpieces : Text.pieces "@\x7ba\x7d" = [.placeholder "a"] := by decide +kernel
      have hturn : turnsTexts.scope.Refills "@\x7ba\x7d" q ⟨.ok "@\x7bb\x7d", q, none⟩ :=
        Context.refills_ofTexts hpieces rfl q
      exact ⟨"@\x7bb\x7d", by decide, by decide, by rw [hpass.unique hturn]⟩
    · have hpieces : Text.pieces "@\x7bb\x7d" = [.placeholder "b"] := by decide +kernel
      have hturn : turnsTexts.scope.Refills "@\x7bb\x7d" q ⟨.ok "@\x7ba\x7d", q, none⟩ :=
        Context.refills_ofTexts hpieces rfl q
      exact ⟨"@\x7ba\x7d", by decide, by decide, by rw [hpass.unique hturn]⟩
  have hnever : ∀ {text q}, turnsTexts.scope.Settles text q →
      text ∉ ["@\x7ba\x7d", "@\x7bb\x7d"] := by
    intro text q h
    induction h with
    | failed hrefills hresult =>
      intro htext
      obtain ⟨other, -, -, hother⟩ := hpass htext hrefills
      rw [hresult] at hother
      cases hother
    | unchanged hrefills hresult =>
      intro htext
      obtain ⟨other, -, hne, hother⟩ := hpass htext hrefills
      rw [hresult] at hother
      exact hne (Except.ok.inj hother).symm
    | changed hrefills hresult _ _ ih =>
      intro htext
      obtain ⟨other, hmem, -, hother⟩ := hpass htext hrefills
      rw [hresult] at hother
      exact ih (Except.ok.inj hother ▸ hmem)
  exact fun h => hnever h (by decide)

end Cascade
