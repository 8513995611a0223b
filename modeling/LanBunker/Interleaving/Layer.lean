import LanBunker.Interleaving.System
import Mathlib.Data.List.Perm.Basic

/-!
# A layer of requests over a system

The requests of a layer are programs that call the requests of a system, next to operations of
their own.  Every run of the layer is a run of the system, where what the layer does by itself just
happens: the same calls, with the same answers, at the same states.
-/

namespace Interleaving

/-- Answers to two kinds of operations. -/
abbrev Either {Op Extra : Type} (Ans : Op → Type) (ExtraAns : Extra → Type) : Op ⊕ Extra → Type
  | .inl op => Ans op
  | .inr extra => ExtraAns extra

/-- What two kinds of operations do to one state. -/
def Either.perform {State Op Extra : Type} {Ans : Op → Type} {ExtraAns : Extra → Type}
    (exec : (op : Op) → State → Ans op → State → Prop)
    (own : (extra : Extra) → State → ExtraAns extra → State → Prop) :
    (call : Op ⊕ Extra) → State → Either Ans ExtraAns call → State → Prop
  | .inl op => exec op
  | .inr extra => own extra

/-- A call of an operation, among more operations. -/
def Entry.lift {Op Extra : Type} {Ans : Op → Type} {ExtraAns : Extra → Type}
    (entry : Entry Op Ans) : Entry (Op ⊕ Extra) (Either Ans ExtraAns) :=
  ⟨.inl entry.op, entry.answer⟩

namespace Program

variable {Op Op' Extra : Type} {Ans : Op → Type} {Ans' : Op' → Type} {ExtraAns : Extra → Type}
  {α β γ : Type}

/-- A program among more operations. -/
def lift : Program Op Ans α → Program (Op ⊕ Extra) (Either Ans ExtraAns) α
  | .answer value => .answer value
  | .call op next => .call (.inl op) fun result => (next result).lift

/-- Every call is carried out by a program. -/
def expand (carry : (op : Op) → Program Op' Ans' (Ans op)) : Program Op Ans α → Program Op' Ans' α
  | .answer value => .answer value
  | .call op next => (carry op).bind fun result => (next result).expand carry

theorem bind_assoc (program : Program Op Ans α) (middle : α → Program Op Ans β)
    (last : β → Program Op Ans γ) :
    (program.bind middle).bind last = program.bind fun value => (middle value).bind last := by
  induction program with
  | answer value => rfl
  | call op next ih => exact congrArg (Program.call op) (funext ih)

/-- A lifted program calls what the program calls, after the calls before it. -/
theorem Follows.lift {may : History Op Ans → Op → Prop} {past : History Op Ans}
    {program : Program Op Ans α} {post : α → History Op Ans → Prop}
    {before : History (Op ⊕ Extra) (Either Ans ExtraAns)}
    (follows : program.Follows may past post) :
    program.lift.Follows
      (fun history op => ∃ past op', history = before ++ past.map Entry.lift ∧ op = .inl op' ∧
        may past op')
      (before ++ past.map Entry.lift)
      (fun value history => ∃ past, history = before ++ past.map Entry.lift ∧ post value past) := by
  induction program generalizing past with
  | answer value => exact ⟨past, rfl, follows⟩
  | call op next ih =>
      obtain ⟨allowed, rest⟩ := follows
      refine ⟨⟨past, op, rfl, rfl, allowed⟩, fun result => ?_⟩
      have further := ih result (rest result)
      rw [List.map_append, ← List.append_assoc] at further
      exact further

/-- A call of a request is carried out as it is served, any other call by itself. -/
def carry {Request Response : Type} (serve : Request → Program Op Ans Response) :
    (call : Request ⊕ Extra) →
      Program (Op ⊕ Extra) (Either Ans ExtraAns) (Either (fun _ => Response) ExtraAns call)
  | .inl request => (serve request).lift
  | .inr extra => .call (.inr extra) .answer

end Program

/-! ## Layers -/

/-- What a layer serves over a system: its own operations, and programs that call the requests of
the system. -/
structure Layer (sys : System) where
  Extra : Type
  ExtraAns : Extra → Type
  perform : (extra : Extra) → sys.State → ExtraAns extra → sys.State → Prop
  drift : sys.State → sys.State → Prop
  Request : Type
  Response : Type
  plan : Request → Program (sys.Request ⊕ Extra) (Either (fun _ => sys.Response) ExtraAns) Response

namespace Layer

variable {sys : System} (layer : Layer sys)

/-- What a request of the layer calls. -/
abbrev Plan (α : Type) :=
  Program (sys.Request ⊕ layer.Extra) (Either (fun _ => sys.Response) layer.ExtraAns) α

/-- A request of the system runs as it does there. -/
abbrev carry : (call : sys.Request ⊕ layer.Extra) →
    Program (sys.Op ⊕ layer.Extra) (Either sys.Ans layer.ExtraAns)
      (Either (fun _ => sys.Response) layer.ExtraAns call) :=
  Program.carry sys.serve

/-- The layer as a system of its own. -/
abbrev system : System where
  State := sys.State
  Op := sys.Op ⊕ layer.Extra
  Ans := Either sys.Ans layer.ExtraAns
  Request := layer.Request
  Response := layer.Response
  serve request := (layer.plan request).expand layer.carry
  exec := Either.perform sys.exec layer.perform
  drift := layer.drift

/-- The same layer where the state of the system changes by itself in another way. -/
abbrev rebased (drift : sys.State → sys.State → Prop) : Layer { sys with drift } where
  Extra := layer.Extra
  ExtraAns := layer.ExtraAns
  perform := layer.perform
  drift := layer.drift
  Request := layer.Request
  Response := layer.Response
  plan := layer.plan

/-! ## A run of the layer is a run of the system -/

/-- The system may do by itself what the layer does without a request of the system. -/
def Covered (moment : Moment layer.system) : Prop :=
  match moment.label with
  | .call _ _ _ (.inr _) _ | .drift =>
      moment.after = moment.before ∨ sys.drift moment.before moment.after
  | _ => True

/-- A step of the system that no call is part of: a request arrives, replies or is dropped. -/
def Silent (moment : Moment sys) : Prop :=
  moment.after = moment.before ∧ ∀ name request past op answer,
    moment.label ≠ .call name request past op answer

/-- The same calls with the same answers at the same states, in the same order.  What the layer
does by itself is nothing in the system, or a change that the system makes by itself.  Arrivals and
replies are not compared, nor which request a call is of: what follows for the layer is about
states and calls. -/
inductive Mirrors : List (Moment layer.system) → List (Moment sys) → Prop where
  | nil : Mirrors [] []
  | silent {upper : List (Moment layer.system)} {lower : List (Moment sys)} {moment : Moment sys}
      (mirrors : Mirrors upper lower) (silent : Silent moment) :
      Mirrors upper (lower ++ [moment])
  | unseen {upper : List (Moment layer.system)} {lower : List (Moment sys)}
      {moment : Moment layer.system} (mirrors : Mirrors upper lower)
      (same : moment.after = moment.before)
      (own : ∀ name request past op answer,
        moment.label ≠ .call name request past (.inl op) answer) :
      Mirrors (upper ++ [moment]) lower
  | call {upper : List (Moment layer.system)} {lower : List (Moment sys)}
      {before after : sys.State} {name name' : Nat} {request : layer.Request}
      {request' : sys.Request} {past : History layer.system.Op layer.system.Ans}
      {past' : History sys.Op sys.Ans} {op : sys.Op} {answer : sys.Ans op}
      (mirrors : Mirrors upper lower) :
      Mirrors (upper ++ [⟨before, .call name request past (.inl op) answer, after⟩])
        (lower ++ [⟨before, .call name' request' past' op answer, after⟩])
  | drift {upper : List (Moment layer.system)} {lower : List (Moment sys)}
      {moment : Moment layer.system} (mirrors : Mirrors upper lower)
      (own : ∀ name request past op answer,
        moment.label ≠ .call name request past (.inl op) answer) :
      Mirrors (upper ++ [moment]) (lower ++ [⟨moment.before, .drift, moment.after⟩])

/-- The rest of a thread of the layer, with the rest of the request that runs for it: it is done,
it is at an operation of the layer, or it is in the middle of a request of the system. -/
inductive Fits : Program layer.system.Op layer.system.Ans layer.Response →
    Option (Program sys.Op sys.Ans sys.Response) → Prop where
  | done (response : layer.Response) : Fits (.answer response) none
  | own (extra : layer.Extra) (next : layer.ExtraAns extra → layer.Plan layer.Response) :
      Fits (Program.expand layer.carry (.call (.inr extra) next)) none
  | busy (op : sys.Op) (rest : sys.Ans op → Program sys.Op sys.Ans sys.Response)
      (next : sys.Response → layer.Plan layer.Response) :
      Fits ((Program.call op rest).lift.bind fun response => (next response).expand layer.carry)
        (some (.call op rest))

variable {layer}

theorem Mirrors.append_silent {upper : List (Moment layer.system)} {lower more : List (Moment sys)}
    (mirrors : layer.Mirrors upper lower) (silent : ∀ moment ∈ more, Silent moment) :
    layer.Mirrors upper (lower ++ more) := by
  induction more using List.reverseRecOn with
  | nil => rwa [List.append_nil]
  | append_singleton more moment ih =>
      rw [← List.append_assoc]
      exact (ih fun other member => silent other (List.mem_append_left _ member)).silent
        (silent moment (by simp))

/-- The configurations of the layer and of the system that belong together: every thread of the
layer has at most one request running for it, and no other request runs. -/
structure Tracks (upper : Config layer.system) (lower : Config sys) : Prop where
  state : lower.state = upper.state
  pool : ∃ pairs : List (Thread layer.system × Option (Thread sys)),
    (pairs.map Prod.fst).Perm upper.pool ∧ (pairs.filterMap Prod.snd).Perm lower.pool ∧
      ∀ pair ∈ pairs, layer.Fits pair.1.rest (pair.2.map Thread.rest)

/-- The system goes on by silent steps until what runs for a plan fits it. -/
theorem settle (plan : layer.Plan layer.Response) (lower : Config sys)
    {others : List (Thread sys)} (pool : lower.pool.Perm others) :
    ∃ trace settled companion, Run lower trace settled ∧ settled.state = lower.state ∧
      (∀ moment ∈ trace, Silent moment) ∧
      settled.pool.Perm ((companion : Option (Thread sys)).toList ++ others) ∧
      layer.Fits (plan.expand layer.carry) (companion.map Thread.rest) := by
  induction plan generalizing lower with
  | answer response =>
      exact ⟨[], lower, none, .nil lower, rfl, by simp, pool, .done response⟩
  | call call next ih =>
      cases call with
      | inr extra => exact ⟨[], lower, none, .nil lower, rfl, by simp, pool, .own extra next⟩
      | inl request =>
          -- The request arrives, and stays unless it answers at once.
          have arrival := Step.arrive lower request
          generalize served : sys.serve request = program at arrival
          cases program with
          | call op rest =>
              refine ⟨_, _, some ⟨lower.arrivals, request, [], .call op rest⟩,
                (Run.nil lower).snoc arrival, rfl, ?_, ?_, ?_⟩
              · intro moment member
                obtain rfl := List.mem_singleton.mp member
                exact ⟨rfl, fun _ _ _ _ _ impossible => by cases impossible⟩
              · exact (List.perm_append_comm.trans (pool.cons _))
              · rw [Program.expand, carry, Program.carry, served]
                exact .busy op rest next
          | answer response =>
              have running : (lower.pool ++
                  [⟨lower.arrivals, request, [], .answer response⟩])[lower.pool.length]? =
                    some (⟨lower.arrivals, request, [], .answer response⟩ : Thread sys) := by
                simp
              have reply : Step ({ lower with
                  arrivals := lower.arrivals + 1
                  pool := lower.pool ++ [⟨lower.arrivals, request, [], .answer response⟩] } :
                    Config sys) _ _ := .reply running
              rw [List.eraseIdx_append_of_length_le (Nat.le_refl _), Nat.sub_self,
                List.eraseIdx_zero, List.tail_cons, List.append_nil] at reply
              have replied := ((Run.nil lower).snoc arrival).snoc reply
              obtain ⟨trace, settled, companion, run, state, silent, settled_pool, fits⟩ :=
                ih response { lower with arrivals := lower.arrivals + 1 } pool
              refine ⟨_, settled, companion, replied.trans run, state, ?_, settled_pool, ?_⟩
              · intro moment member
                rcases List.mem_append.mp member with first | later
                · rcases List.mem_pair.mp first with rfl | rfl
                  · exact ⟨rfl, fun _ _ _ _ _ impossible => by cases impossible⟩
                  · exact ⟨rfl, fun _ _ _ _ _ impossible => by cases impossible⟩
                · exact silent moment later
              · rw [Program.expand, carry, Program.carry, served]
                exact fits

/-- A thread of a pool has an index, and the others are the rest of the pool. -/
private theorem exists_index {pool others : List (Thread sys)} {thread : Thread sys}
    (perm : pool.Perm (thread :: others)) :
    ∃ index, pool[index]? = some thread ∧ (pool.eraseIdx index).Perm others := by
  obtain ⟨index, in_pool, rfl⟩ := List.getElem_of_mem (perm.symm.subset List.mem_cons_self)
  refine ⟨index, List.getElem?_eq_getElem in_pool, ?_⟩
  exact ((List.getElem_cons_eraseIdx_perm in_pool).trans perm).cons_inv

/-- A running thread apart from the others, with what runs for it. -/
theorem Tracks.pick {upper : Config layer.system} {lower : Config sys}
    (tracks : layer.Tracks upper lower) {index : Nat} {thread : Thread layer.system}
    (running : upper.pool[index]? = some thread) :
    ∃ (companion : Option (Thread sys))
      (others : List (Thread layer.system × Option (Thread sys))),
      layer.Fits thread.rest (companion.map Thread.rest) ∧
        (others.map Prod.fst).Perm (upper.pool.eraseIdx index) ∧
        lower.pool.Perm (companion.toList ++ others.filterMap Prod.snd) ∧
        ∀ pair ∈ others, layer.Fits pair.1.rest (pair.2.map Thread.rest) := by
  obtain ⟨pairs, fst_perm, snd_perm, fit⟩ := tracks.pool
  obtain ⟨in_pool, there⟩ := List.getElem?_eq_some_iff.mp running
  have member : thread ∈ pairs.map Prod.fst :=
    fst_perm.symm.subset (there ▸ List.getElem_mem in_pool)
  obtain ⟨⟨first, companion⟩, pair_mem, rfl⟩ := List.mem_map.mp member
  obtain ⟨front, back, rfl⟩ := List.append_of_mem pair_mem
  have middle :
      (front ++ (first, companion) :: back).Perm ((first, companion) :: (front ++ back)) :=
    List.perm_middle
  have whole := (List.getElem_cons_eraseIdx_perm in_pool).symm
  rw [there] at whole
  refine ⟨companion, front ++ back, fit _ pair_mem, ?_, ?_, fun pair pair_mem => ?_⟩
  · exact List.Perm.cons_inv (((middle.map Prod.fst).symm.trans fst_perm).trans whole)
  · refine snd_perm.symm.trans ((middle.filterMap Prod.snd).trans ?_)
    cases companion with
    | none => rfl
    | some companion => rfl
  · refine fit pair ?_
    rcases List.mem_append.mp pair_mem with front_mem | back_mem
    · exact List.mem_append_left _ front_mem
    · exact List.mem_append_right _ (List.mem_cons_of_mem _ back_mem)

/-- A thread whose rest is a plan joins others: the system settles for it. -/
theorem Tracks.resume (upper : Config layer.system) (lower : Config sys)
    {others : List (Thread layer.system × Option (Thread sys))} (thread : Thread layer.system)
    (plan : layer.Plan layer.Response) (state : lower.state = upper.state)
    (rest : thread.rest = plan.expand layer.carry)
    (upper_pool : (thread :: others.map Prod.fst).Perm upper.pool)
    (lower_pool : lower.pool.Perm (others.filterMap Prod.snd))
    (fit : ∀ pair ∈ others, layer.Fits pair.1.rest (pair.2.map Thread.rest)) :
    ∃ trace settled, Run lower trace settled ∧ (∀ moment ∈ trace, Silent moment) ∧
      layer.Tracks upper settled := by
  obtain ⟨trace, settled, companion, run, same, silent, pool, fits⟩ :=
    layer.settle plan lower lower_pool
  refine ⟨trace, settled, run, silent, same.trans state, (thread, companion) :: others,
    upper_pool, ?_, fun pair member => ?_⟩
  · refine List.Perm.trans ?_ pool.symm
    cases companion with
    | none => exact List.Perm.refl _
    | some companion => exact List.Perm.refl _
  · rcases List.mem_cons.mp member with rfl | member
    · exact rest ▸ fits
    · exact fit pair member

/-- Nothing runs for a thread that answers. -/
theorem Fits.of_answer {companion : Option (Program sys.Op sys.Ans sys.Response)}
    {response : layer.Response} (fits : layer.Fits (.answer response) companion) :
    companion = none := by
  generalize rest_eq : (Program.answer response : Program layer.system.Op _ _) = rest at fits
  cases fits with
  | done response => rfl
  | own extra next => cases rest_eq
  | busy op rest next => cases rest_eq

/-- Nothing runs for a thread at an operation of the layer. -/
theorem Fits.of_own {companion : Option (Program sys.Op sys.Ans sys.Response)}
    {extra : layer.Extra} {next : layer.ExtraAns extra → Program _ _ layer.Response}
    (fits : layer.Fits (.call (.inr extra) next) companion) :
    companion = none ∧
      ∀ answer, ∃ plan : layer.Plan layer.Response, next answer = plan.expand layer.carry := by
  generalize rest_eq : (Program.call (.inr extra) next :
    Program layer.system.Op layer.system.Ans _) = rest at fits
  cases fits with
  | done response => cases rest_eq
  | own extra plan =>
      rw [Program.expand, carry, Program.carry, Program.bind] at rest_eq
      obtain ⟨same_op, same⟩ := Program.call.inj rest_eq
      cases same_op
      obtain rfl := eq_of_heq same
      exact ⟨rfl, fun answer => ⟨plan answer, rfl⟩⟩
  | busy op rest further =>
      rw [Program.lift, Program.bind] at rest_eq
      obtain ⟨impossible, -⟩ := Program.call.inj rest_eq
      cases impossible

/-- A thread at an operation of the system is where the request that runs for it is. -/
theorem Fits.of_busy {companion : Option (Program sys.Op sys.Ans sys.Response)} {op : sys.Op}
    {next : sys.Ans op → Program _ _ layer.Response}
    (fits : layer.Fits (.call (.inl op) next) companion) :
    ∃ rest, companion = some (.call op rest) ∧
      ∃ further : sys.Response → layer.Plan layer.Response, ∀ answer,
        next answer = (rest answer).lift.bind fun response =>
          (further response).expand layer.carry := by
  generalize rest_eq : (Program.call (.inl op) next :
    Program layer.system.Op layer.system.Ans _) = rest at fits
  cases fits with
  | done response => cases rest_eq
  | own extra plan =>
      rw [Program.expand, carry, Program.carry, Program.bind] at rest_eq
      obtain ⟨impossible, -⟩ := Program.call.inj rest_eq
      cases impossible
  | busy op' rest further =>
      rw [Program.lift, Program.bind] at rest_eq
      obtain ⟨same_op, same⟩ := Program.call.inj rest_eq
      cases same_op
      obtain rfl := eq_of_heq same
      exact ⟨rest, rfl, further, fun answer => rfl⟩

/-! ### The steps of the layer, one by one -/

/-- A step of the layer is matched: the system goes on until both belong together again. -/
def Matched (before : List (Moment layer.system)) (before' : List (Moment sys))
    (lower : Config sys) (moment : Moment layer.system) (upper' : Config layer.system) : Prop :=
  ∃ trace lower', Run lower trace lower' ∧ layer.Tracks upper' lower' ∧
    layer.Mirrors (before ++ [moment]) (before' ++ trace)

section Steps

variable {upper : Config layer.system} {lower : Config sys} {before : List (Moment layer.system)}
  {before' : List (Moment sys)} {index name : Nat} {request : layer.Request}
  {past : History layer.system.Op layer.system.Ans} {after : sys.State}

theorem Tracks.arrive (tracks : layer.Tracks upper lower) (mirrors : layer.Mirrors before before')
    (request : layer.Request) :
    Matched before before' lower
      ⟨upper.state, .arrive upper.arrivals request, upper.state⟩
      { upper with
        arrivals := upper.arrivals + 1
        pool := upper.pool ++ [⟨upper.arrivals, request, [], layer.system.serve request⟩] } := by
  obtain ⟨pairs, fst_perm, snd_perm, fit⟩ := tracks.pool
  obtain ⟨trace, settled, run, silent, tracks'⟩ := Tracks.resume
    { upper with
      arrivals := upper.arrivals + 1
      pool := upper.pool ++ [⟨upper.arrivals, request, [], layer.system.serve request⟩] }
    lower ⟨upper.arrivals, request, [], layer.system.serve request⟩ (layer.plan request)
    tracks.state rfl
    ((fst_perm.cons _).trans (List.perm_append_singleton _ _).symm) snd_perm.symm fit
  refine ⟨trace, settled, run, tracks', ?_⟩
  exact Mirrors.append_silent
    (mirrors.unseen rfl fun _ _ _ _ _ impossible => by cases impossible) silent

theorem Tracks.reply (tracks : layer.Tracks upper lower) (mirrors : layer.Mirrors before before')
    {response : layer.Response}
    (running : upper.pool[index]? = some ⟨name, request, past, .answer response⟩) :
    Matched before before' lower ⟨upper.state, .reply name request past response, upper.state⟩
      { upper with pool := upper.pool.eraseIdx index } := by
  obtain ⟨companion, others, fits, fst_perm, lower_pool, fit⟩ := tracks.pick running
  obtain rfl := Option.map_eq_none_iff.mp fits.of_answer
  refine ⟨[], lower, .nil lower, ⟨tracks.state, others, fst_perm, lower_pool.symm, fit⟩, ?_⟩
  rw [List.append_nil]
  exact mirrors.unseen rfl fun _ _ _ _ _ impossible => by cases impossible

/-- What runs for a request that is dropped is dropped too. -/
theorem Tracks.drop (tracks : layer.Tracks upper lower) (mirrors : layer.Mirrors before before')
    {thread : Thread layer.system} (running : upper.pool[index]? = some thread) :
    Matched before before' lower
      ⟨upper.state, .drop thread.name thread.request, upper.state⟩
      { upper with pool := upper.pool.eraseIdx index } := by
  obtain ⟨companion, others, -, fst_perm, lower_pool, fit⟩ := tracks.pick running
  have unseen : layer.Mirrors
      (before ++ [⟨upper.state, .drop thread.name thread.request, upper.state⟩]) before' :=
    mirrors.unseen rfl fun _ _ _ _ _ impossible => by cases impossible
  cases companion with
  | none =>
      refine ⟨[], lower, .nil lower, ⟨tracks.state, others, fst_perm, lower_pool.symm, fit⟩, ?_⟩
      rw [List.append_nil]
      exact unseen
  | some companion =>
      obtain ⟨index, running', dropped⟩ := exists_index lower_pool
      refine ⟨_, _, (Run.nil lower).snoc (.drop running'),
        ⟨tracks.state, others, fst_perm, dropped.symm, fit⟩, ?_⟩
      exact unseen.silent ⟨rfl, fun _ _ _ _ _ impossible => by cases impossible⟩

theorem Tracks.drift (tracks : layer.Tracks upper lower) (mirrors : layer.Mirrors before before')
    (covered : after = upper.state ∨ sys.drift upper.state after) :
    Matched before before' lower ⟨upper.state, .drift, after⟩ { upper with state := after } := by
  obtain ⟨pairs, fst_perm, snd_perm, fit⟩ := tracks.pool
  rcases covered with same | drift
  · have unseen : layer.Mirrors (before ++ [⟨upper.state, .drift, after⟩]) before' :=
      mirrors.unseen same fun _ _ _ _ _ impossible => by cases impossible
    refine ⟨[], lower, .nil lower,
      ⟨tracks.state.trans same.symm, pairs, fst_perm, snd_perm, fit⟩, ?_⟩
    rw [List.append_nil]
    exact unseen
  · have drift' : sys.drift lower.state after := tracks.state ▸ drift
    refine ⟨_, _, (Run.nil lower).snoc (.drift drift'), ⟨rfl, pairs, fst_perm, snd_perm, fit⟩, ?_⟩
    rw [tracks.state]
    exact mirrors.drift fun _ _ _ _ _ impossible => by cases impossible

/-- A thread that goes on stays in its place. -/
private theorem perm_set {α : Type} {pool others : List α} {thread : α}
    (running : pool[index]? = some thread) (perm : others.Perm (pool.eraseIdx index)) (next : α) :
    (next :: others).Perm (pool.set index next) := by
  obtain ⟨in_pool, -⟩ := List.getElem?_eq_some_iff.mp running
  exact (perm.cons next).trans (List.set_perm_cons_eraseIdx in_pool next).symm

/-- An operation of the layer, after which its plan goes on. -/
theorem Tracks.perform (tracks : layer.Tracks upper lower)
    (mirrors : layer.Mirrors before before') {extra : layer.Extra}
    {next : layer.ExtraAns extra → Program layer.system.Op layer.system.Ans layer.Response}
    {answer : layer.ExtraAns extra}
    (running : upper.pool[index]? = some ⟨name, request, past, .call (.inr extra) next⟩)
    (covered : after = upper.state ∨ sys.drift upper.state after) :
    Matched before before' lower ⟨upper.state, .call name request past (.inr extra) answer, after⟩
      { upper with
        state := after
        pool := upper.pool.set index
          ⟨name, request, past ++ [⟨.inr extra, answer⟩], next answer⟩ } := by
  obtain ⟨companion, others, fits, fst_perm, lower_pool, fit⟩ := tracks.pick running
  obtain ⟨no_companion, plans⟩ := fits.of_own
  obtain rfl := Option.map_eq_none_iff.mp no_companion
  obtain ⟨plan, rest⟩ := plans answer
  have own : ∀ name' request' past' op (answer' : sys.Ans op),
      (Label.call name request past (.inr extra) answer : Label layer.system) ≠
        .call name' request' past' (.inl op) answer' :=
    fun _ _ _ _ _ impossible => by cases impossible
  rcases covered with same | drift
  · obtain ⟨trace, settled, run, silent, tracks'⟩ := Tracks.resume
      { upper with state := after, pool := _ } lower ⟨_, _, _, _⟩ plan
      (tracks.state.trans same.symm) rest (perm_set running fst_perm _) lower_pool fit
    exact ⟨trace, settled, run, tracks', (mirrors.unseen same own).append_silent silent⟩
  · have drifted : Step lower _ { lower with state := after } := .drift (tracks.state ▸ drift)
    obtain ⟨trace, settled, run, silent, tracks'⟩ := Tracks.resume
      { upper with state := after, pool := _ } { lower with state := after } ⟨_, _, _, _⟩
      plan rfl rest (perm_set running fst_perm _) lower_pool fit
    refine ⟨_, settled, ((Run.nil lower).snoc drifted).trans run, tracks', ?_⟩
    rw [List.nil_append, ← List.append_assoc, tracks.state]
    exact (mirrors.drift own).append_silent silent

/-- A request of the system that is done replies, and the plan it ran for goes on. -/
theorem Tracks.replied (upper : Config layer.system) (lower : Config sys)
    {others : List (Thread layer.system × Option (Thread sys))} (thread : Thread layer.system)
    (plan : layer.Plan layer.Response) {request' : sys.Request} {past' : History sys.Op sys.Ans}
    {response : sys.Response} (state : lower.state = upper.state)
    (running : lower.pool[index]? = some ⟨name, request', past', .answer response⟩)
    (rest : thread.rest = plan.expand layer.carry)
    (upper_pool : (thread :: others.map Prod.fst).Perm upper.pool)
    (lower_pool : (lower.pool.eraseIdx index).Perm (others.filterMap Prod.snd))
    (fit : ∀ pair ∈ others, layer.Fits pair.1.rest (pair.2.map Thread.rest)) :
    ∃ trace settled, Run lower trace settled ∧ (∀ moment ∈ trace, Silent moment) ∧
      layer.Tracks upper settled := by
  obtain ⟨trace, settled, run, silent, tracks⟩ := Tracks.resume upper
    { lower with pool := lower.pool.eraseIdx index } thread plan state rest upper_pool lower_pool
    fit
  refine ⟨_, settled, ((Run.nil lower).snoc (.reply running)).trans run, ?_, tracks⟩
  intro moment member
  rcases List.mem_append.mp member with first | later
  · obtain rfl := List.mem_singleton.mp first
    exact ⟨rfl, fun _ _ _ _ _ impossible => by cases impossible⟩
  · exact silent moment later

/-- A call of the system, made by the request that runs for the thread. -/
theorem Tracks.call (tracks : layer.Tracks upper lower) (mirrors : layer.Mirrors before before')
    {op : sys.Op} {next : sys.Ans op → Program layer.system.Op layer.system.Ans layer.Response}
    {answer : sys.Ans op}
    (running : upper.pool[index]? = some ⟨name, request, past, .call (.inl op) next⟩)
    (exec : sys.exec op upper.state answer after) :
    Matched before before' lower ⟨upper.state, .call name request past (.inl op) answer, after⟩
      { upper with
        state := after
        pool := upper.pool.set index
          ⟨name, request, past ++ [⟨.inl op, answer⟩], next answer⟩ } := by
  obtain ⟨companion, others, fits, fst_perm, lower_pool, fit⟩ := tracks.pick running
  obtain ⟨rest, companion_eq, further, next_eq⟩ := fits.of_busy
  obtain ⟨⟨name', request', past', _⟩, rfl, rfl⟩ := Option.map_eq_some_iff.mp companion_eq
  obtain ⟨index', running', others_pool⟩ := exists_index lower_pool
  obtain ⟨in_pool', -⟩ := List.getElem?_eq_some_iff.mp running'
  have placed := perm_set running fst_perm
  have called := Step.call running' (tracks.state ▸ exec)
  have both : layer.Mirrors
      (before ++ [⟨upper.state, .call name request past (.inl op) answer, after⟩])
      (before' ++ [⟨lower.state, .call name' request' past' op answer, after⟩]) := by
    rw [tracks.state]
    exact mirrors.call
  cases goes_on : rest answer with
  | call op' rest' =>
      have placed' := perm_set running' others_pool.symm
      refine ⟨_, _, (Run.nil lower).snoc called,
        ⟨rfl, (⟨_, _, _, _⟩, some ⟨_, _, _, _⟩) :: others, placed _, placed' _,
          fun pair member => ?_⟩, both⟩
      rcases List.mem_cons.mp member with rfl | member
      · rw [next_eq, goes_on, Option.map_some]
        exact .busy op' rest' further
      · exact fit pair member
  | answer response =>
      have done : (lower.pool.set index' ⟨name', request', past' ++ [⟨op, answer⟩],
          rest answer⟩)[index']? = some ⟨name', request', past' ++ [⟨op, answer⟩],
            .answer response⟩ := by
        rw [List.getElem?_set_self in_pool', goes_on]
      have plan_next : next answer = (further response).expand layer.carry := by
        rw [next_eq, goes_on]
        rfl
      obtain ⟨trace, settled, run, silent, tracks'⟩ := Tracks.replied
        { upper with state := after, pool := _ }
        { lower with state := after, pool := lower.pool.set index' _ } ⟨_, _, _, _⟩
        (further response) rfl done plan_next (placed _)
        (by rw [List.eraseIdx_set_eq]; exact others_pool) fit
      refine ⟨_, settled, ((Run.nil lower).snoc called).trans run, tracks', ?_⟩
      rw [List.nil_append, ← List.append_assoc]
      exact both.append_silent silent

/-- One step of the layer is matched by the system. -/
theorem Tracks.step {upper' : Config layer.system} (tracks : layer.Tracks upper lower)
    {moment : Moment layer.system} (step : Step upper moment upper')
    (covered : layer.Covered moment) (mirrors : layer.Mirrors before before') :
    Matched before before' lower moment upper' := by
  cases step with
  | arrive request => exact tracks.arrive mirrors request
  | reply running => exact tracks.reply mirrors running
  | drop running => exact tracks.drop mirrors running
  | drift _ => exact tracks.drift mirrors covered
  | @call _ _ _ _ op _ _ _ running exec =>
      cases op with
      | inl op => exact tracks.call mirrors running exec
      | inr extra => exact tracks.perform mirrors running covered

end Steps

variable (layer)

/-- Every run of a layer is a run of the system below it, call by call, when the system may do by
itself what the layer does alone. -/
theorem run_mirrored {state : sys.State} {upper : List (Moment layer.system)}
    {stop : Config layer.system} (run : Run (Config.quiet state : Config layer.system) upper stop)
    (covered : ∀ moment ∈ upper, layer.Covered moment) :
    ∃ lower stop', Run (Config.quiet state : Config sys) lower stop' ∧ stop'.state = stop.state ∧
      layer.Mirrors upper lower := by
  have tracked : ∃ lower stop', Run (Config.quiet state : Config sys) lower stop' ∧
      layer.Tracks stop stop' ∧ layer.Mirrors upper lower := by
    generalize origin : (Config.quiet state : Config layer.system) = start at run
    induction run with
    | nil =>
        subst origin
        exact ⟨[], Config.quiet state, .nil _, ⟨rfl, [], .nil, .nil, by simp⟩, .nil⟩
    | snoc run step ih =>
        obtain ⟨lower, stop', run', tracks, mirrors⟩ :=
          ih fun moment member => covered moment (List.mem_append_left _ member)
        obtain ⟨trace, further, run_further, tracks', mirrors'⟩ :=
          tracks.step step (covered _ (by simp)) mirrors
        exact ⟨lower ++ trace, further, run'.trans run_further, tracks', mirrors'⟩
  obtain ⟨lower, stop', run', tracks, mirrors⟩ := tracked
  exact ⟨lower, stop', run', tracks.state, mirrors⟩

end Layer
end Interleaving
