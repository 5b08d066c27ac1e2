import PointRelaxation.Log.Solver
import PointRelaxation.Proofs.Draft

/-!
# Calls in calls, traced

Functions whose calls are traced call each other. Tracing should then be seen in the log alone, and
there as brackets: between the two records of a call stand those of the calls that it made.

* `Activity`: what a function does, with calls of other functions in it. It can be run with and
  without tracing.
* `Activity.traced_of_history`: a traced run does what the run without tracing does, and logs its
  history.
* `readCalls_brackets`: from the records that are due to tracing alone the calls can be read back.
* `Solver.evaluate_eq`, `Solver.settle_eq`: operations of the solver as activities.
* `Solver.evaluate_of_known`: an evaluation against a view that knows all points of the scene, for
  which no hypothesis about what can be shown is needed.
* `traced_calls`: all this of every activity, and that tracing twice is tracing once.
* `traced_calls_stale`: arguments that cannot be shown fail a call that would succeed without
  tracing.
-/

namespace PointRelaxation

variable {σ ε β γ : Type}

/-- A call in a program: who logs it, under which name, and what is shown of its arguments and of
its result. -/
structure Site (σ ε β : Type) where
  logger : Logger
  name : String
  /-- The arguments at the state at which the call is made, if they can be shown. -/
  arguments : σ → Except ε Call
  show? : Option (β → Value)

/-- What a function does when it is called: it may write records of its own, read and write the
state, call other functions and go on with their results or faults, and in the end it has a result
or a fault itself. -/
inductive Activity (σ ε : Type) : Type → Type 1 where
  | finish {β : Type} (outcome : Except ε β) : Activity σ ε β
  | note {β : Type} (r : Record) (rest : Activity σ ε β) : Activity σ ε β
  | read {β : Type} (rest : σ → Activity σ ε β) : Activity σ ε β
  | write {β : Type} (s : σ) (rest : Activity σ ε β) : Activity σ ε β
  | call {β γ : Type} (site : Site σ ε γ) (callee : Activity σ ε γ)
      (rest : Except ε γ → Activity σ ε β) : Activity σ ε β

/-! ## What happens in a run -/

/-- How a call ended: with a fault, or with a result that may be shown. -/
inductive Ending where
  | raised
  | returned (shown : Option Value)

/-- The ending of a call that had an outcome. -/
def Ending.of (show? : Option (β → Value)) : Except ε β → Ending
  | .error _ => raised
  | .ok b => returned (show?.map fun value => value b)

def Ending.isRaised : Ending → Bool
  | raised => true
  | returned _ => false

/-- What happened in a run: the records that functions wrote of their own, and the calls that were
made, with what happened in each. -/
inductive History where
  | done
  | own (r : Record) (rest : History)
  | call (logger : Logger) (name : String) (arguments : Call) (inner : History) (ending : Ending)
      (rest : History)

/-- A call with the calls that were made in it. -/
inductive CallTree where
  | node (name : String) (raised : Bool) (callees : List CallTree)

/-- What a log of a traced run has a record of. -/
inductive Event where
  | own (r : Record)
  | entering (logger : Logger) (name : String) (arguments : Call)
  | ended (logger : Logger) (name : String) (ending : Ending)

namespace Event

def record : Event → Record
  | own r => r
  | entering logger name arguments =>
    Logged.note logger ("Entering " ++ name ++ " (" ++ arguments.text ++ ")")
  | ended logger name .raised => Logged.note logger ("Exception in " ++ name)
  | ended logger name (.returned (some value)) =>
    Logged.note logger ("Exiting " ++ name ++ " -> " ++ value.abridged)
  | ended logger name (.returned none) => Logged.note logger ("Exiting " ++ name)

/-- Whether an event is recorded by tracing. -/
def isBracket : Event → Bool
  | own _ => false
  | _ => true

lemma record_ended (logger : Logger) (name : String) (show? : Option (β → Value))
    (outcome : Except ε β) :
    (ended logger name (Ending.of show? outcome)).record =
      Logged.close logger name show? outcome := by
  cases outcome with
  | error e => rfl
  | ok b => cases show? <;> rfl

end Event

namespace History

/-- The records that functions wrote of their own. -/
def ownRecords : History → List Record
  | done => []
  | own r rest => r :: rest.ownRecords
  | call _ _ _ inner _ rest => inner.ownRecords ++ rest.ownRecords

/-- What a log of the history has records of, in order. -/
def events : History → List Event
  | done => []
  | own r rest => .own r :: rest.events
  | call logger name arguments inner ending rest =>
    .entering logger name arguments :: inner.events ++ .ended logger name ending :: rest.events

/-- The calls that were made. -/
def calls : History → List CallTree
  | done => []
  | own _ rest => rest.calls
  | call _ name _ inner ending rest => .node name ending.isRaised inner.calls :: rest.calls

/-- The events that are recorded by tracing. -/
def brackets (h : History) : List Event := h.events.filter Event.isBracket

lemma brackets_call (logger : Logger) (name : String) (arguments : Call) (inner : History)
    (ending : Ending) (rest : History) :
    (call logger name arguments inner ending rest).brackets =
      .entering logger name arguments :: inner.brackets ++
        .ended logger name ending :: rest.brackets :=
  List.filter_append ..

/-- What is not recorded by tracing are the records of the functions. -/
lemma map_record_events (h : History) :
    (h.events.filter (¬ ·.isBracket)).map Event.record = h.ownRecords := by
  induction h with
  | done => rfl
  | own r rest ih => exact congrArg (r :: ·) ih
  | call logger name arguments inner ending rest ihinner ihrest =>
    rw [ownRecords, ← ihinner, ← ihrest, ← List.map_append]
    congr 1
    exact List.filter_append ..

end History

/-! ## Running -/

/-- What is left by a function, behind records that were written before. -/
def Logged.behind (records : List Record) (l : Logged σ ε β) : Logged σ ε β :=
  { l with records := records ++ l.records }

namespace Activity

/-- A run in which something is done around each call, of which the state before it is known and
what the function left. -/
def run (around : ∀ {γ : Type}, Site σ ε γ → σ → Logged σ ε γ → Logged σ ε γ) :
    {β : Type} → Activity σ ε β → σ → Logged σ ε β
  | _, finish outcome, s => ⟨s, [], outcome⟩
  | _, note r rest, s => (rest.run around s).behind [r]
  | _, read rest, s => (rest s).run around s
  | _, write s rest, _ => rest.run around s
  | _, call site callee rest, s =>
    let inner := around site s (callee.run around s)
    ((rest inner.result).run around inner.state).behind inner.records

/-- A run without tracing. -/
def bare (a : Activity σ ε β) (s : σ) : Logged σ ε β := a.run (fun _ _ l => l) s

/-- What tracing does around a call. -/
def bracket (threshold : Level) (site : Site σ ε β) (s : σ) (l : Logged σ ε β) : Logged σ ε β :=
  Logged.bracket threshold site.logger site.name s (fun _ => site.arguments s) site.show? l

/-- A run in which every call is traced. -/
def traced (threshold : Level) (a : Activity σ ε β) (s : σ) : Logged σ ε β :=
  a.run (bracket threshold) s

/-- What happens in a run without tracing. It can be told if the arguments of every call that is
made can be shown. -/
def history : {β : Type} → Activity σ ε β → σ → Except ε History
  | _, finish _, _ => .ok .done
  | _, note r rest, s => do
    let h ← rest.history s
    return .own r h
  | _, read rest, s => (rest s).history s
  | _, write s rest, _ => rest.history s
  | _, call site callee rest, s => do
    let arguments ← site.arguments s
    let inner ← callee.history s
    let l := callee.bare s
    let h ← (rest l.result).history l.state
    return .call site.logger site.name arguments inner (.of site.show? l.result) h

/-- A function of which every call is a site of its own. -/
def called (site : Site σ ε β) (body : Activity σ ε β) : Activity σ ε β := call site body finish

variable {threshold : Level} {a : Activity σ ε β} {s : σ} {h : History}

/-- What stands around the call of a function is all that is added to what it does. -/
lemma traced_called (site : Site σ ε β) (body : Activity σ ε β) :
    (called site body).traced threshold s = bracket threshold site s (body.traced threshold s) := by
  show Logged.behind (bracket threshold site s (body.traced threshold s)).records
    ⟨(bracket threshold site s (body.traced threshold s)).state, [], _⟩ = _
  rw [Logged.behind, List.append_nil]
  rfl

/-- Where debugging records are not kept, nothing is done around calls. -/
lemma traced_of_not_allows (hquiet : ¬ threshold.allows .debug) (a : Activity σ ε β) (s : σ) :
    a.traced threshold s = a.bare s := by
  unfold traced bare
  congr 1
  funext γ site s l
  exact if_neg hquiet

lemma history_call_eq_ok {site : Site σ ε γ} {callee : Activity σ ε γ}
    {rest : Except ε γ → Activity σ ε β} (hcall : (call site callee rest).history s = .ok h) :
    ∃ arguments inner later, site.arguments s = .ok arguments ∧ callee.history s = .ok inner ∧
      (rest (callee.bare s).result).history (callee.bare s).state = .ok later ∧
      h = .call site.logger site.name arguments inner
        (.of site.show? (callee.bare s).result) later := by
  obtain ⟨arguments, harguments, hrest⟩ := bind_eq_ok.1 hcall
  obtain ⟨inner, hinner, hrest⟩ := bind_eq_ok.1 hrest
  obtain ⟨later, hlater, heq⟩ := bind_eq_ok.1 hrest
  exact ⟨arguments, inner, later, harguments, hinner, hlater, (Except.ok.inj heq).symm⟩

lemma history_called {site : Site σ ε β} {body : Activity σ ε β} {arguments : Call}
    (harguments : site.arguments s = .ok arguments) (hbody : body.history s = .ok h) :
    (called site body).history s =
      .ok (.call site.logger site.name arguments h (.of site.show? (body.bare s).result) .done) :=
  bind_eq_ok.2 ⟨arguments, harguments, bind_eq_ok.2 ⟨h, hbody, rfl⟩⟩

/-- Without tracing the functions' own records are left. -/
lemma records_bare (hh : a.history s = .ok h) : (a.bare s).records = h.ownRecords := by
  induction a generalizing s h with
  | finish outcome =>
    cases hh
    rfl
  | note r rest ih =>
    obtain ⟨later, hlater, heq⟩ := bind_eq_ok.1 hh
    cases heq
    exact congrArg (r :: ·) (ih hlater)
  | read rest ih => exact ih s hh
  | write s' rest ih => exact ih hh
  | call site callee rest ihcallee ihrest =>
    obtain ⟨arguments, inner, later, -, hinner, hlater, rfl⟩ := history_call_eq_ok hh
    have hrecords := congrArg₂ (· ++ ·) (ihcallee hinner) (ihrest _ hlater)
    exact hrecords

/-- A call whose arguments can be shown is made between its two records, and leaves what it leaves
without them. -/
lemma bracket_of_allows (hdebug : threshold.allows .debug) {site : Site σ ε β} {arguments : Call}
    (harguments : site.arguments s = .ok arguments) (l : Logged σ ε β) :
    bracket threshold site s l =
      ⟨l.state, (Event.entering site.logger site.name arguments).record :: l.records ++
        [(Event.ended site.logger site.name (.of site.show? l.result)).record], l.result⟩ := by
  unfold bracket Logged.bracket
  rw [if_pos hdebug, harguments, Event.record_ended]
  rfl

/-- With tracing the state and the outcome are those of the run without it, and what happened in
that run is logged. -/
lemma traced_of_history (hdebug : threshold.allows .debug) (hh : a.history s = .ok h) :
    a.traced threshold s =
      ⟨(a.bare s).state, h.events.map Event.record, (a.bare s).result⟩ := by
  induction a generalizing s h with
  | finish outcome =>
    cases hh
    rfl
  | note r rest ih =>
    obtain ⟨later, hlater, heq⟩ := bind_eq_ok.1 hh
    cases heq
    exact congrArg (Logged.behind [r]) (ih hlater)
  | read rest ih => exact ih s hh
  | write s' rest ih => exact ih hh
  | call site callee rest ihcallee ihrest =>
    obtain ⟨arguments, inner, later, harguments, hinner, hlater, rfl⟩ := history_call_eq_ok hh
    have hinside : bracket threshold site s (callee.traced threshold s) =
        ⟨(callee.bare s).state, (Event.entering site.logger site.name arguments).record ::
          inner.events.map Event.record ++ [(Event.ended site.logger site.name
            (.of site.show? (callee.bare s).result)).record], (callee.bare s).result⟩ := by
      rw [bracket_of_allows hdebug harguments, ihcallee hinner]
    have hwhole : (call site callee rest).traced threshold s =
        ((rest (bracket threshold site s (callee.traced threshold s)).result).traced threshold
          (bracket threshold site s (callee.traced threshold s)).state).behind
            (bracket threshold site s (callee.traced threshold s)).records := rfl
    rw [hwhole, hinside, ihrest _ hlater, Logged.behind, History.events, List.map_append,
      List.map_cons, List.map_cons, List.append_assoc]
    rfl

end Activity

/-! ## Reading the calls back -/

/-- The calls that a word of brackets tells of. Calls that are open stand in front, innermost first,
each with the calls that were complete when it was entered; then those that are complete in the
innermost one. -/
def readCalls : List Event → List (String × List CallTree) → List CallTree →
    Option (List CallTree)
  | [], [], calls => some calls
  | [], _ :: _, _ => none
  | .entering _ name _ :: events, outer, calls => readCalls events ((name, calls) :: outer) []
  | .ended _ name ending :: events, (opened, before) :: outer, calls =>
    if opened = name then
      readCalls events outer (before ++ [.node name ending.isRaised calls])
    else none
  | .ended _ _ _ :: _, [], _ => none
  | .own _ :: _, _, _ => none

/-- From the brackets of a history its calls can be read back, whatever is open when they begin. -/
lemma readCalls_append (h : History) (events : List Event) (outer : List (String × List CallTree))
    (calls : List CallTree) :
    readCalls (h.brackets ++ events) outer calls = readCalls events outer (calls ++ h.calls) := by
  induction h generalizing events outer calls with
  | done =>
    show readCalls events outer calls = _
    rw [History.calls, List.append_nil]
  | own r rest ih => exact ih events outer calls
  | call logger name arguments inner ending rest ihinner ihrest =>
    rw [History.brackets_call, List.append_assoc]
    -- the call is opened, and is on top again when what happened in it has been read
    show readCalls (inner.brackets ++ (.ended logger name ending :: (rest.brackets ++ events)))
      ((name, calls) :: outer) [] = _
    rw [ihinner]
    show (if name = name then _ else _) = _
    rw [if_pos rfl, ihrest, List.append_assoc]
    rfl

lemma readCalls_brackets (h : History) : readCalls h.brackets [] [] = some h.calls := by
  have happend := readCalls_append h [] [] []
  rwa [List.append_nil] at happend

/-! ## The operations of the solver -/

namespace Solver

/-- What is done in an evaluation of a point's candidates. -/
def evaluating (scene : Scene Float) (view : View Float) :
    Activity (Point Float) (Fault Float) Int :=
  .read fun p =>
    match p.evaluate scene.decimals (view.places scene) with
    | (q, some f) => .write q (.finish (.error f))
    | (q, none) => .write q (.finish (.ok q.degenerate))

/-- An evaluation of a point's candidates against a view. -/
def evaluation (scene : Scene Float) (view : View Float) :
    Activity (Point Float) (Fault Float) Int :=
  let arguments (p : Point Float) := do
    let v ← viewValue scene view
    return callOf [pointValue scene.decimals p, v]
  .called ⟨.solver, "evaluate_candidates", arguments, some .int⟩ (evaluating scene view)

/-- A choice of the best candidate. -/
def choice : Site (Point Float) (Fault Float) (Cell × Float) :=
  ⟨.solver, "find_best_candidate", fun p => .ok (callOf [candidatesValue p.candidates]),
    some choiceValue⟩

/-- What is done in the settling of a point. The best candidate is chosen once the point's own cell
is known. -/
def settling (decimals : ℕ) : Activity (Point Float) (Fault Float) Bool :=
  .read fun p =>
    match p.cell decimals with
    | .error f => .finish (.error f)
    | .ok _ =>
      .call choice (.finish p.candidates.best) fun _ =>
        .write (p.settle decimals).1 (.finish (p.settle decimals).2)

/-- The settling of a point from its evaluated candidates. -/
def settlement (decimals : ℕ) : Activity (Point Float) (Fault Float) Bool :=
  .called ⟨.solver, "update_with_best_score", fun p => .ok (callOf [pointValue decimals p]),
    some .truth⟩ (settling decimals)

lemma evaluate_eq (threshold : Level) (scene : Scene Float) (view : View Float) (p : Point Float) :
    evaluate threshold scene view p = (evaluation scene view).traced threshold p := by
  have hbody : (evaluating scene view).traced threshold p =
      match p.evaluate scene.decimals (view.places scene) with
      | (q, some f) => ⟨q, [], .error f⟩
      | (q, none) => ⟨q, [], .ok q.degenerate⟩ := by
    unfold Activity.traced evaluating
    rw [Activity.run]
    rcases p.evaluate scene.decimals (view.places scene) with ⟨q, _ | f⟩ <;> rfl
  rw [evaluation, Activity.traced_called, hbody]
  unfold evaluate evaluated
  rcases p.evaluate scene.decimals (view.places scene) with ⟨q, _ | f⟩ <;> rfl

lemma settle_eq (threshold : Level) (decimals : ℕ) (p : Point Float) :
    settle threshold decimals p = (settlement decimals).traced threshold p := by
  rw [settlement, Activity.traced_called]
  unfold settle
  rcases hcell : p.cell decimals with f | c
  · have hsettle : p.settle decimals = (p, .error f) := by rw [Point.settle, hcell]
    have hbody : (settling decimals).traced threshold p = ⟨p, [], .error f⟩ := by
      unfold Activity.traced settling
      rw [Activity.run, hcell]
      rfl
    rw [hbody, hsettle]
    rfl
  · have hbest : Activity.bracket threshold choice p ⟨p, [], p.candidates.best⟩ =
        ⟨p, (best threshold p.candidates).records, p.candidates.best⟩ := by
      unfold Activity.bracket best Logged.bracket
      split <;> rfl
    have hbody : (settling decimals).traced threshold p =
        ⟨(p.settle decimals).1, (best threshold p.candidates).records,
          (p.settle decimals).2⟩ := by
      unfold Activity.traced settling
      rw [Activity.run, hcell]
      show Logged.behind (Activity.bracket threshold choice p ⟨p, [], _⟩).records ⟨_, [], _⟩ = _
      rw [hbest, Logged.behind, List.append_nil]
    rw [hbody]
    rfl

/-- A view that knows all points of a scene can be shown. -/
lemma exists_viewValue {scene : Scene Float} {view : View Float}
    (h : ∀ name ∈ scene.names, ∃ v, view.places scene name = .ok v) :
    ∃ value, viewValue scene view = .ok value := by
  unfold viewValue
  dsimp only
  split
  · exact ⟨_, rfl⟩
  · have hshown : ∀ name ∈ (view.names scene).take 5, ∃ entry : Value × Value,
        (do
          let v ← view.places scene name
          return (Value.text name, Value.vec v) : Except (Fault Float) _) = .ok entry := by
      intro name hname
      obtain ⟨v, hv⟩ := h name (List.mem_of_mem_take hname)
      exact ⟨_, bind_eq_ok.2 ⟨v, hv, rfl⟩⟩
    obtain ⟨entries, hentries⟩ := exists_mapM_iff.2 hshown
    exact ⟨_, bind_eq_ok.2 ⟨entries, hentries, rfl⟩⟩

/-- Against a view that knows all points of the scene, an evaluation leaves at every threshold what
it leaves without tracing. -/
lemma evaluate_of_known {scene : Scene Float} {view : View Float}
    (h : ∀ name ∈ scene.names, ∃ v, view.places scene name = .ok v) (threshold : Level)
    (p : Point Float) :
    (evaluate threshold scene view p).state = ((evaluation scene view).bare p).state ∧
      (evaluate threshold scene view p).result = ((evaluation scene view).bare p).result := by
  rw [evaluate_eq]
  by_cases hdebug : threshold.allows .debug
  · obtain ⟨value, hvalue⟩ := exists_viewValue h
    have hbody : (evaluating scene view).history p = .ok .done := by
      unfold evaluating
      rw [Activity.history]
      rcases p.evaluate scene.decimals (view.places scene) with ⟨q, _ | f⟩ <;> rfl
    have hhistory : (evaluation scene view).history p = .ok _ :=
      Activity.history_called (bind_eq_ok.2 ⟨value, hvalue, rfl⟩) hbody
    rw [Activity.traced_of_history hdebug hhistory]
    exact ⟨rfl, rfl⟩
  · rw [Activity.traced_of_not_allows hdebug]
    exact ⟨rfl, rfl⟩

/-- What happens when a point is settled can always be told. -/
lemma history_settlement {decimals : ℕ} {p : Point Float} {c : Cell}
    (h : p.cell decimals = .ok c) :
    (settlement decimals).history p =
      .ok (.call .solver "update_with_best_score" (callOf [pointValue decimals p])
        (.call .solver "find_best_candidate" (callOf [candidatesValue p.candidates]) .done
          (.of (some choiceValue) p.candidates.best) .done)
        (.of (some .truth) (p.settle decimals).2) .done) := by
  have hchosen : (settling decimals).history p =
      .ok (.call .solver "find_best_candidate" (callOf [candidatesValue p.candidates]) .done
        (.of (some choiceValue) p.candidates.best) .done) := by
    unfold settling
    rw [Activity.history, h]
    rfl
  have hsettled : ((settling decimals).bare p).result = (p.settle decimals).2 := by
    unfold settling Activity.bare
    rw [Activity.run, h]
    rfl
  rw [← hsettled]
  exact Activity.history_called rfl hchosen

end Solver

/-! ## Tracing -/

/-- A function whose calls are traced already stays as it is. -/
lemma Callable.trace_trace (f : Callable ε β) (threshold threshold' : Level)
    (logger logger' : Logger) (name name' : String) (show? show?' : Option (β → Value)) :
    (f.trace threshold logger name show?).trace threshold' logger' name' show?' =
      f.trace threshold logger name show? := by
  have htraced : (f.trace threshold logger name show?).traced := by
    unfold Callable.trace
    split
    · assumption
    · rfl
  exact if_pos htraced

/-- Where debugging records are not kept, functions that call each other do with tracing what they
do without. Where they are kept, and the arguments of all calls that are made can be shown, the
state and the outcome are the same. What is logged then are the functions' own records and the
brackets: one in front of each call and one behind it, by the same name, with those of the calls
that it made in between, so that all calls, and whether they raised, can be read back from the
brackets alone. And to trace a function twice is to trace it once. -/
theorem traced_calls {σ ε β : Type} (threshold : Level) (a : Activity σ ε β) (s : σ) :
    (¬ threshold.allows .debug → a.traced threshold s = a.bare s) ∧
    (∀ h, threshold.allows .debug → a.history s = .ok h →
      (a.traced threshold s).state = (a.bare s).state ∧
      (a.traced threshold s).result = (a.bare s).result ∧
      (a.traced threshold s).records = h.events.map Event.record ∧
      (h.events.filter (¬ ·.isBracket)).map Event.record = (a.bare s).records ∧
      readCalls (h.events.filter Event.isBracket) [] [] = some h.calls) ∧
    ∀ (f : Callable ε β) (threshold' : Level) (logger logger' : Logger) (name name' : String)
      (show? show?' : Option (β → Value)),
      (f.trace threshold logger name show?).trace threshold' logger' name' show?' =
        f.trace threshold logger name show? := by
  refine ⟨fun hquiet => Activity.traced_of_not_allows hquiet a s, fun h hdebug hh => ?_,
    fun f threshold' logger logger' name name' show? show?' =>
      f.trace_trace threshold threshold' logger logger' name name' show? show?'⟩
  have hrun := Activity.traced_of_history hdebug hh
  rw [hrun]
  refine ⟨rfl, rfl, rfl, ?_, readCalls_brackets h⟩
  rw [History.map_record_events, Activity.records_bare hh]

/-- A point without candidates is settled. It has no best one, so that two calls raise, one in the
other. -/
theorem traced_calls_settling :
    let p : Point Float := .unvisited "A" (fun _ _ => .ok 0.0) Vec.zero
    Level.debug.allows .debug ∧ ∃ h, (Solver.settlement 2).history p = .ok h ∧
      (Solver.settle .debug 2 p).result = .error .noCandidates ∧
      (Solver.settle .debug 2 p).records = h.events.map Event.record ∧
      readCalls (h.events.filter Event.isBracket) [] [] =
        some [.node "update_with_best_score" true [.node "find_best_candidate" true []]] := by
  intro p
  have hdebug : Level.debug.allows .debug := by decide
  have hcell : p.cell 2 = .ok ⟨0, 0⟩ := by decide +kernel
  have hresult : (p.settle 2).2 = .error .noCandidates := by decide +kernel
  have hhistory := Solver.history_settlement hcell
  obtain ⟨-, htraced, -⟩ := traced_calls .debug (Solver.settlement 2) p
  obtain ⟨-, -, hrecords, -, hread⟩ := htraced _ hdebug hhistory
  rw [← Solver.settle_eq] at hrecords
  refine ⟨hdebug, _, hhistory, hresult, hrecords, hread.trans ?_⟩
  rw [hresult]
  rfl

/-- The scene of points of given names, which are content wherever they stand. -/
def Scene.content (names : List String) : Scene Float :=
  (Scene.empty defaultDecimals).draft
    (names.map fun name => .point (some name) (some fun _ _ => .ok 0.0) Vec.zero)

/-- A view of one point is frozen, and then another point is registered, which the view does not
know. An evaluation against the view has a result; but where debugging records are kept, it fails,
and leaves no record, because the view cannot be shown. -/
theorem traced_calls_stale :
    let view := View.make (Scene.content ["A"]) true
    let scene := Scene.content ["A", "B"]
    (¬ ∀ (a : Activity (Point Float) (Fault Float) Int) (p : Point Float),
      (a.traced .debug p).result = (a.bare p).result) ∧
    scene.points.map (fun p => (Solver.evaluate .debug scene view p).result) =
      [.error (.unknownPoint "B"), .error (.unknownPoint "B")] ∧
    scene.points.map (fun p => (Solver.evaluate .debug scene view p).records) = [[], []] ∧
    scene.points.map (fun p => (Solver.evaluate .info scene view p).result) = [.ok 0, .ok 0] := by
  intro view scene
  have hdebug : scene.points.map (fun p => (Solver.evaluate .debug scene view p).result) =
      [.error (.unknownPoint "B"), .error (.unknownPoint "B")] := by decide +kernel
  have hinfo : scene.points.map (fun p => (Solver.evaluate .info scene view p).result) =
      [.ok 0, .ok 0] := by decide +kernel
  refine ⟨fun htransparent => ?_, hdebug, by decide +kernel, hinfo⟩
  -- at the other threshold the evaluation is not traced, and would have to fail all the same
  have halike : ∀ p ∈ scene.points, (Solver.evaluate .debug scene view p).result =
      (Solver.evaluate .info scene view p).result := by
    intro p _
    rw [Solver.evaluate_eq, Solver.evaluate_eq, htransparent,
      Activity.traced_of_not_allows (by decide)]
  rw [List.map_congr_left halike, hinfo] at hdebug
  cases hdebug

end PointRelaxation
