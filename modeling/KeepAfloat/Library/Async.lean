import Mathlib

/-! Cooperative programs over a shared state. A program performs one operation after
another and can be dropped while it waits for any of them; between two operations
other parties may change the state. A contract says what a program may rely on and what
it owes, and the rules below prove a program safe under its contract one operation at a
time. -/

namespace Async

/-- A program: it is done, or it performs an operation and goes on with the answer. -/
inductive Prog (Op : Type) (Answer : Op → Type) (Value : Type) : Type where
  | done (value : Value)
  | call (op : Op) (next : Answer op → Prog Op Answer Value)

namespace Prog

variable {Op : Type} {Answer : Op → Type} {Value Result : Type}

def bind : Prog Op Answer Value → (Value → Prog Op Answer Result) → Prog Op Answer Result
  | done value, rest => rest value
  | call op next, rest => call op fun answer => (next answer).bind rest

instance : Monad (Prog Op Answer) where
  pure := done
  bind := bind

def perform (op : Op) : Prog Op Answer (Answer op) := call op done

/-- Every operation that the program can come to has the property. -/
def Only (allowed : Op → Prop) : Prog Op Answer Value → Prop
  | done _ => True
  | call op next => allowed op ∧ ∀ answer, (next answer).Only allowed

theorem Only.bind {allowed : Op → Prop} {prog : Prog Op Answer Value}
    {rest : Value → Prog Op Answer Result} (h : prog.Only allowed)
    (hRest : ∀ value, (rest value).Only allowed) : (prog >>= rest).Only allowed := by
  induction prog with
  | done value => exact hRest value
  | call op next ih => exact ⟨h.1, fun answer => ih answer (h.2 answer)⟩

theorem Only.mono {allowed weaker : Op → Prop} {prog : Prog Op Answer Value}
    (h : prog.Only allowed) (hWeaker : ∀ op, allowed op → weaker op) : prog.Only weaker := by
  induction prog with
  | done value => trivial
  | call op next ih => exact ⟨hWeaker op h.1, fun answer => ih answer (h.2 answer)⟩

theorem Only.perform {allowed : Op → Prop} {op : Op} (h : allowed op) :
    (perform op : Prog Op Answer (Answer op)).Only allowed :=
  ⟨h, fun _ => trivial⟩

end Prog

/-- What operations do, and what dropping a program does that waits for one. -/
structure Machine (Op : Type) (Answer : Op → Type) (State : Type) where
  does : State → (op : Op) → Answer op → State → Prop
  drop : State → Op → State

/-- The machine, watched only as long as the state is not doomed. -/
def Machine.barring {Op : Type} {Answer : Op → Type} {State : Type}
    (machine : Machine Op Answer State) (doomed : State → Prop) : Machine Op Answer State where
  does state op answer after := machine.does state op answer after ∧ ¬doomed after
  drop := machine.drop

/-- What a program may rely on: the moves of all other parties, and an invariant of the
whole system. What it owes: a property of every state in which it is about to perform
an operation, and one of every state in which it may be left behind. -/
structure Contract {Op : Type} {Answer : Op → Type} {State : Type}
    (machine : Machine Op Answer State) where
  rely : State → State → Prop
  good : State → Prop
  demand : State → Op → Prop
  leave : State → Prop
  does_good : ∀ {state : State} {op : Op} {answer : Answer op} {after : State}, good state →
    machine.does state op answer after → good after

namespace Contract

variable {Op : Type} {Answer : Op → Type} {State Value Result : Type}
variable {machine : Machine Op Answer State} (contract : Contract machine)

/-- What other parties can make of a state. -/
def Later : State → State → Prop :=
  Relation.ReflTransGen fun state after => contract.rely state after ∧ contract.good after

/-- The program keeps its contract from this state on and ends in its postcondition. -/
def Safe : Prog Op Answer Value → (Value → State → Prop) → State → Prop
  | .done value, post, state => ∀ after, contract.Later state after → post value after
  | .call op next, post, state => ∀ before, contract.Later state before →
      contract.demand before op ∧ contract.leave (machine.drop before op) ∧
        ∀ answer after, machine.does before op answer after → Safe (next answer) post after

/-- No other party takes the property away. -/
def Stable (property : State → Prop) : Prop :=
  ∀ state after, contract.good state → contract.good after → contract.rely state after →
    property state → property after

/-- From every good state with the precondition the program is safe. -/
def Triple (pre : State → Prop) (prog : Prog Op Answer Value) (post : Value → State → Prop) : Prop :=
  ∀ state, contract.good state → pre state → contract.Safe prog post state

variable {contract}

theorem Safe.later {prog : Prog Op Answer Value} {post : Value → State → Prop}
    {state after : State} (h : contract.Safe prog post state) (hLater : contract.Later state after) :
    contract.Safe prog post after := by
  cases prog with
  | done value => exact fun final hFinal => h final (hLater.trans hFinal)
  | call op next => exact fun before hBefore => h before (hLater.trans hBefore)

theorem Safe.mono {prog : Prog Op Answer Value} {post weaker : Value → State → Prop} {state : State}
    (h : contract.Safe prog post state) (hPost : ∀ value after, post value after → weaker value after) :
    contract.Safe prog weaker state := by
  induction prog generalizing state with
  | done value => exact fun after hAfter => hPost value after (h after hAfter)
  | call op next ih =>
      intro before hBefore
      obtain ⟨hDemand, hLeave, hNext⟩ := h before hBefore
      exact ⟨hDemand, hLeave, fun answer after hDoes => ih answer (hNext answer after hDoes)⟩

theorem Later.good {state after : State} (h : contract.Later state after)
    (hGood : contract.good state) : contract.good after := by
  induction h with
  | refl => exact hGood
  | tail _ hStep _ => exact hStep.2

theorem Stable.later {property : State → Prop} {state after : State}
    (h : contract.Stable property) (hGood : contract.good state)
    (hLater : contract.Later state after) (hState : property state) : property after := by
  induction hLater with
  | refl => exact hState
  | tail hBefore hStep ih => exact h _ _ (Later.good hBefore hGood) hStep.2 hStep.1 ih

theorem Stable.and {first second : State → Prop} (h : contract.Stable first)
    (h' : contract.Stable second) : contract.Stable fun state => first state ∧ second state :=
  fun state after hGood hAfter hRely hBoth =>
    ⟨h state after hGood hAfter hRely hBoth.1, h' state after hGood hAfter hRely hBoth.2⟩

theorem Stable.imp (condition : Prop) {property : State → Prop} (h : contract.Stable property) :
    contract.Stable fun state => condition → property state :=
  fun state after hGood hAfter hRely hImp hCondition =>
    h state after hGood hAfter hRely (hImp hCondition)

theorem Stable.const (fact : Prop) : contract.Stable fun _ => fact :=
  fun _ _ _ _ _ hFact => hFact

/-- A safe program ends in a good state. -/
theorem Safe.good {prog : Prog Op Answer Value} {post : Value → State → Prop} {state : State}
    (h : contract.Safe prog post state) (hGood : contract.good state) :
    contract.Safe prog (fun value after => contract.good after ∧ post value after) state := by
  induction prog generalizing state with
  | done value => exact fun after hAfter => ⟨hAfter.good hGood, h after hAfter⟩
  | call op next ih =>
      intro before hBefore
      obtain ⟨hDemand, hLeave, hNext⟩ := h before hBefore
      refine ⟨hDemand, hLeave, fun answer after hDoes => ?_⟩
      exact ih answer (hNext answer after hDoes) (contract.does_good (hBefore.good hGood) hDoes)

theorem Safe.bind {prog : Prog Op Answer Value} {rest : Value → Prog Op Answer Result}
    {post : Result → State → Prop} {state : State}
    (h : contract.Safe prog (fun value after => contract.Safe (rest value) post after) state) :
    contract.Safe (prog >>= rest) post state := by
  induction prog generalizing state with
  | done value => exact h state .refl
  | call op next ih =>
      intro before hBefore
      obtain ⟨hDemand, hLeave, hNext⟩ := h before hBefore
      exact ⟨hDemand, hLeave, fun answer after hDoes => ih answer (hNext answer after hDoes)⟩

theorem Triple.done {pre : State → Prop} {post : Value → State → Prop} {value : Value}
    (hStable : contract.Stable pre) (h : ∀ state, contract.good state → pre state → post value state) :
    contract.Triple pre (pure value) post :=
  fun _ hGood hPre after hAfter => h after (hAfter.good hGood) (hStable.later hGood hAfter hPre)

/-- A fact that the precondition implies can be used to prove the triple. -/
theorem Triple.assume {pre : State → Prop} {fact : Prop} {prog : Prog Op Answer Value}
    {post : Value → State → Prop} (hFact : ∀ state, pre state → fact)
    (h : fact → contract.Triple pre prog post) : contract.Triple pre prog post :=
  fun state hGood hPre => h (hFact state hPre) state hGood hPre

/-- What holds of the value is what holds before it is returned. -/
theorem Triple.keep {post : Value → State → Prop} {value : Value}
    (hStable : contract.Stable (post value)) : contract.Triple (post value) (pure value) post :=
  .done hStable fun _ _ hPost => hPost

theorem Triple.bind {pre : State → Prop} {prog : Prog Op Answer Value}
    {middle : Value → State → Prop} {rest : Value → Prog Op Answer Result}
    {post : Result → State → Prop} (h : contract.Triple pre prog middle)
    (hRest : ∀ value, contract.Triple (middle value) (rest value) post) :
    contract.Triple pre (prog >>= rest) post := by
  intro state hGood hPre
  apply Safe.bind
  apply ((h state hGood hPre).good hGood).mono
  rintro value after ⟨hAfter, hMiddle⟩
  exact hRest value after hAfter hMiddle

theorem Triple.mono {pre stronger : State → Prop} {prog : Prog Op Answer Value}
    {post weaker : Value → State → Prop} (h : contract.Triple pre prog post)
    (hPre : ∀ state, contract.good state → stronger state → pre state)
    (hPost : ∀ value state, post value state → weaker value state) :
    contract.Triple stronger prog weaker :=
  fun state hGood hStronger => (h state hGood (hPre state hGood hStronger)).mono hPost

/-- One operation: the precondition is stable, it gives what is owed before the
operation, and every way to perform the operation ends in the postcondition. -/
theorem Triple.perform {pre : State → Prop} {op : Op} {post : Answer op → State → Prop}
    (hStable : contract.Stable pre) (hPost : ∀ answer, contract.Stable (post answer))
    (hOwed : ∀ state, contract.good state → pre state →
      contract.demand state op ∧ contract.leave (machine.drop state op))
    (hDoes : ∀ state answer after, contract.good state → contract.good after → pre state →
      machine.does state op answer after → post answer after) :
    contract.Triple pre (Prog.perform op) post := by
  intro state hGood hPre before hBefore
  have hGoodBefore := hBefore.good hGood
  have hPreBefore := hStable.later hGood hBefore hPre
  obtain ⟨hDemand, hLeave⟩ := hOwed before hGoodBefore hPreBefore
  refine ⟨hDemand, hLeave, fun answer after hStep final hFinal => ?_⟩
  have hGoodAfter := contract.does_good hGoodBefore hStep
  exact (hPost answer).later hGoodAfter hFinal
    (hDoes before answer after hGoodBefore hGoodAfter hPreBefore hStep)

end Contract

/-! ### Changing the contract -/

namespace Contract

variable {Op : Type} {Answer : Op → Type} {State Value : Type}
variable {machine : Machine Op Answer State} {contract weaker : Contract machine}

/-- A weaker contract: it allows less to others and asks less of the program. -/
structure Weaker (contract weaker : Contract machine) : Prop where
  rely : ∀ {state after : State}, weaker.rely state after → contract.rely state after
  good : ∀ {state : State}, weaker.good state → contract.good state
  demand : ∀ {state : State} {op : Op}, contract.demand state op → weaker.demand state op
  leave : ∀ {state : State}, contract.leave state → weaker.leave state

theorem Weaker.later (h : contract.Weaker weaker) {state after : State}
    (hLater : weaker.Later state after) : contract.Later state after :=
  Relation.ReflTransGen.mono (fun _ _ hStep => ⟨h.rely hStep.1, h.good hStep.2⟩) _ _ hLater

theorem Safe.weaken {prog : Prog Op Answer Value} {post : Value → State → Prop} {state : State}
    (hWeaker : contract.Weaker weaker) (h : contract.Safe prog post state) :
    weaker.Safe prog post state := by
  induction prog generalizing state with
  | done value => exact fun after hAfter => h after (hWeaker.later hAfter)
  | call op next ih =>
      intro before hBefore
      obtain ⟨hDemand, hLeave, hNext⟩ := h before (hWeaker.later hBefore)
      exact ⟨hWeaker.demand hDemand, hWeaker.leave hLeave,
        fun answer after hDoes => ih answer (hNext answer after hDoes)⟩

/-- The contract, watched only as long as the state is not doomed. -/
def barring (contract : Contract machine) (doomed : State → Prop) :
    Contract (machine.barring doomed) where
  rely := contract.rely
  good state := contract.good state ∧ ¬doomed state
  demand := contract.demand
  leave := contract.leave
  does_good hGood hDoes := ⟨contract.does_good hGood.1 hDoes.1, hDoes.2⟩

/-- A doomed state stays so and excuses every allowed operation. -/
structure Excuse (contract : Contract machine) (doomed : State → Prop) (allowed : Op → Prop) :
    Prop where
  rely : ∀ {state after : State}, contract.rely state after → doomed state → doomed after
  does : ∀ {state : State} {op : Op} {answer : Answer op} {after : State},
    machine.does state op answer after → doomed state → doomed after
  demand : ∀ {state : State} {op : Op}, allowed op → doomed state → contract.demand state op
  leave : ∀ {state : State} {op : Op}, doomed state → contract.leave (machine.drop state op)

section

variable {doomed : State → Prop} {allowed : Op → Prop}

theorem Excuse.later (excuse : contract.Excuse doomed allowed) {state after : State}
    (h : contract.Later state after) (hDoomed : doomed state) : doomed after := by
  induction h with
  | refl => exact hDoomed
  | tail _ hStep ih => exact excuse.rely hStep.1 ih

/-- Nothing was doomed on the way to a state that is not. -/
theorem Excuse.later_barring (excuse : contract.Excuse doomed allowed) {state after : State}
    (h : contract.Later state after) (hAfter : ¬doomed after) :
    (contract.barring doomed).Later state after := by
  induction h with
  | refl => exact .refl
  | tail hBefore hStep ih =>
      have hNot := fun hDoomed => hAfter (excuse.rely hStep.1 hDoomed)
      exact (ih hNot).tail ⟨hStep.1, hStep.2, hAfter⟩

theorem Safe.of_doomed (excuse : contract.Excuse doomed allowed) {prog : Prog Op Answer Value}
    (hOnly : prog.Only allowed) {state : State} (hDoomed : doomed state) :
    contract.Safe prog (fun _ => doomed) state := by
  induction prog generalizing state with
  | done value => exact fun after hAfter => excuse.later hAfter hDoomed
  | call op next ih =>
      intro before hBefore
      have hDoomedBefore := excuse.later hBefore hDoomed
      refine ⟨excuse.demand hOnly.1 hDoomedBefore, excuse.leave hDoomedBefore, ?_⟩
      intro answer after hDoes
      exact ih answer (hOnly.2 answer) (excuse.does hDoes hDoomedBefore)

theorem Safe.of_barring (excuse : contract.Excuse doomed allowed) {prog : Prog Op Answer Value}
    (hOnly : prog.Only allowed) {post : Value → State → Prop} {state : State}
    (h : (contract.barring doomed).Safe prog post state) :
    contract.Safe prog (fun value after => doomed after ∨ post value after) state := by
  induction prog generalizing state with
  | done value =>
      intro after hAfter
      by_cases hDoomed : doomed after
      · exact .inl hDoomed
      · exact .inr (h after (excuse.later_barring hAfter hDoomed))
  | call op next ih =>
      intro before hBefore
      by_cases hDoomed : doomed before
      · refine ⟨excuse.demand hOnly.1 hDoomed, excuse.leave hDoomed, ?_⟩
        intro answer after hDoes
        apply (Safe.of_doomed excuse (hOnly.2 answer) (excuse.does hDoes hDoomed)).mono
        exact fun _ _ => .inl
      · obtain ⟨hDemand, hLeave, hNext⟩ := h before (excuse.later_barring hBefore hDoomed)
        refine ⟨hDemand, hLeave, fun answer after hDoes => ?_⟩
        by_cases hAfter : doomed after
        · apply (Safe.of_doomed excuse (hOnly.2 answer) hAfter).mono
          exact fun _ _ => .inl
        · exact ih answer (hOnly.2 answer) (hNext answer after ⟨hDoes, hAfter⟩)

/-- It is enough to prove a program safe as long as nothing is doomed. -/
theorem Triple.of_barring (excuse : contract.Excuse doomed allowed) {prog : Prog Op Answer Value}
    (hOnly : prog.Only allowed) {pre : State → Prop} {post : Value → State → Prop}
    (h : (contract.barring doomed).Triple pre prog post) :
    contract.Triple (fun state => doomed state ∨ pre state) prog
      fun value state => doomed state ∨ post value state := by
  intro state hGood hPre
  by_cases hDoomed : doomed state
  · apply (Safe.of_doomed excuse hOnly hDoomed).mono
    exact fun _ _ => .inl
  · exact Safe.of_barring excuse hOnly (h state ⟨hGood, hDoomed⟩ (hPre.resolve_left hDoomed))

end

end Contract

/-- An operation of a program that is never dropped here, or that may be. -/
inductive Await (Op : Type) where
  | plain (op : Op)
  | droppable (op : Op)

namespace Await

def op {Op : Type} : Await Op → Op
  | plain op => op
  | droppable op => op

/-- A dropped operation has no answer. -/
def Reply {Op : Type} (Answer : Op → Type) : Await Op → Type
  | plain op => Answer op
  | droppable op => Option (Answer op)

end Await

namespace Prog

variable {Op : Type} {Answer : Op → Type} {Value : Type}

/-- Run a program to its end. -/
def lift : Prog Op Answer Value → Prog (Await Op) (Await.Reply Answer) Value
  | done value => done value
  | call op next => call (.plain op) fun answer => (next answer).lift

/-- Run a program that can be dropped at every operation that it waits for. -/
def cancellable : Prog Op Answer Value → Prog (Await Op) (Await.Reply Answer) (Option Value)
  | done value => done (some value)
  | call op next => call (.droppable op) fun reply : Option (Answer op) =>
      reply.elim (done none) fun answer => (next answer).cancellable

theorem Only.lift {allowed : Op → Prop} {prog : Prog Op Answer Value} (h : prog.Only allowed) :
    prog.lift.Only fun await => allowed await.op := by
  induction prog with
  | done value => trivial
  | call op next ih => exact ⟨h.1, fun answer => ih answer (h.2 answer)⟩

theorem Only.cancellable {allowed : Op → Prop} {prog : Prog Op Answer Value}
    (h : prog.Only allowed) : prog.cancellable.Only fun await => allowed await.op := by
  induction prog with
  | done value => trivial
  | call op next ih =>
      refine ⟨h.1, fun answer => ?_⟩
      cases answer with
      | none => trivial
      | some answer => exact ih answer (h.2 answer)

end Prog

/-- The machine of programs with droppable parts. -/
def Machine.await {Op : Type} {Answer : Op → Type} {State : Type}
    (machine : Machine Op Answer State) : Machine (Await Op) (Await.Reply Answer) State where
  does state await reply after :=
    match await, reply with
    | .plain op, answer => machine.does state op answer after
    | .droppable op, none => after = machine.drop state op
    | .droppable op, some answer => machine.does state op answer after
  drop state await := machine.drop state await.op

namespace Contract

variable {Op : Type} {Answer : Op → Type} {State Value Result : Type}
variable {machine : Machine Op Answer State}

/-- The contract of programs with droppable parts, for a system whose invariant
dropping keeps as well. -/
def await (contract : Contract machine)
    (hDrop : ∀ state op, contract.good state → contract.good (machine.drop state op)) :
    Contract machine.await where
  rely := contract.rely
  good := contract.good
  demand state await := contract.demand state await.op
  leave := contract.leave
  does_good := by
    intro state await reply after hGood hDoes
    cases await with
    | plain op => exact contract.does_good hGood hDoes
    | droppable op =>
        cases reply with
        | none =>
            obtain rfl := hDoes
            exact hDrop state op hGood
        | some answer => exact contract.does_good hGood hDoes

variable {contract : Contract machine}
  {hDrop : ∀ state op, contract.good state → contract.good (machine.drop state op)}

theorem Safe.lift {prog : Prog Op Answer Value} {post : Value → State → Prop} {state : State}
    (h : contract.Safe prog post state) : (contract.await hDrop).Safe prog.lift post state := by
  induction prog generalizing state with
  | done value => exact h
  | call op next ih =>
      intro before hBefore
      obtain ⟨hDemand, hLeave, hNext⟩ := h before hBefore
      exact ⟨hDemand, hLeave, fun answer after hDoes => ih answer (hNext answer after hDoes)⟩

/-- A droppable program ends in its postcondition, or where it was left behind. -/
theorem Safe.cancellable {prog : Prog Op Answer Value} {post : Value → State → Prop}
    {state : State} (hLeave : contract.Stable contract.leave) (hGood : contract.good state)
    (h : contract.Safe prog post state) :
    (contract.await hDrop).Safe prog.cancellable
      (fun result after => result.elim (contract.leave after) fun value => post value after) state := by
  induction prog generalizing state with
  | done value => exact h
  | call op next ih =>
      intro before hBefore
      obtain ⟨hDemand, hLeft, hNext⟩ := h before hBefore
      have hGoodBefore := Later.good hBefore hGood
      refine ⟨hDemand, hLeft, fun answer after hDoes => ?_⟩
      cases answer with
      | none =>
          obtain rfl := hDoes
          intro final hFinal
          exact hLeave.later (hDrop _ _ hGoodBefore) hFinal hLeft
      | some answer =>
          exact ih answer (contract.does_good hGoodBefore hDoes) (hNext answer after hDoes)

end Contract

end Async
