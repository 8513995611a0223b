import LanBunker.Interleaving.Layer

/-!
# The discipline of a layer

What the plans of a layer may call, and the discipline of the system below, make one discipline of
the layer: every operation of a run belongs to a request of the system that the plan may make after
the answers it has.
-/

namespace Interleaving

namespace Program

variable {Op : Type} {Ans : Op → Type} {α β : Type}

/-- Every call is allowed, whatever was answered before. -/
def Uses (allowed : Op → Prop) : Program Op Ans α → Prop
  | .answer _ => True
  | .call op next => allowed op ∧ ∀ result, (next result).Uses allowed

theorem Uses.bind {allowed : Op → Prop} {program : Program Op Ans α} {rest : α → Program Op Ans β}
    (uses : program.Uses allowed) (further : ∀ value, (rest value).Uses allowed) :
    (program.bind rest).Uses allowed := by
  induction program with
  | answer value => exact further value
  | call op next ih => exact ⟨uses.1, fun result => ih result (uses.2 result)⟩

theorem Uses.mono {allowed allowed' : Op → Prop} {program : Program Op Ans α}
    (uses : program.Uses allowed) (weaker : ∀ op, allowed op → allowed' op) :
    program.Uses allowed' := by
  induction program with
  | answer value => trivial
  | call op next ih => exact ⟨weaker op uses.1, fun result => ih result (uses.2 result)⟩

/-- What a program calls after a history keeps that history in front. -/
theorem Uses.follows {allowed : Op → Prop} {program : Program Op Ans α}
    (uses : program.Uses allowed) (past later : History Op Ans) :
    program.Follows (fun history op => (∃ later, history = past ++ later) ∧ allowed op)
      (past ++ later) fun _ _ => True := by
  induction program generalizing later with
  | answer value => trivial
  | call op next ih =>
      refine ⟨⟨⟨later, rfl⟩, uses.1⟩, fun result => ?_⟩
      rw [List.append_assoc]
      exact ih result (uses.2 result) _

theorem uses_of_forall {allowed : Op → Prop} (all : ∀ op, allowed op)
    (program : Program Op Ans α) : program.Uses allowed := by
  induction program with
  | answer value => trivial
  | call op next ih => exact ⟨all op, ih⟩

/-- A program that follows two rules follows both. -/
theorem Follows.and {may may' : History Op Ans → Op → Prop} {past : History Op Ans}
    {program : Program Op Ans α} {post post' : α → History Op Ans → Prop}
    (follows : program.Follows may past post) (follows' : program.Follows may' past post') :
    program.Follows (fun past op => may past op ∧ may' past op) past
      (fun value past => post value past ∧ post' value past) := by
  induction program generalizing past with
  | answer value => exact ⟨follows, follows'⟩
  | call op next ih =>
      obtain ⟨allowed, rest⟩ := follows
      obtain ⟨allowed', rest'⟩ := follows'
      exact ⟨⟨allowed, allowed'⟩, fun result => ih result (rest result) (rest' result)⟩

end Program

namespace Layer

variable {sys : System} (layer : Layer sys)

/-- The calls of a plan so far. -/
abbrev PlanHistory :=
  History (sys.Request ⊕ layer.Extra) (Either (fun _ => sys.Response) layer.ExtraAns)

/-- What the plans of a layer may call, and what they may answer. -/
structure Manners where
  may : layer.Request → layer.PlanHistory → sys.Request ⊕ layer.Extra → Prop
  answers : layer.Request → layer.Response → layer.PlanHistory → Prop
  follows : ∀ request, (layer.plan request).Follows (may request) [] (answers request)

variable {layer}

/-- The operations behind the calls of a plan. -/
inductive Spells (below : Discipline sys) :
    layer.PlanHistory → History layer.system.Op layer.system.Ans → Prop where
  | nil : Spells below [] []
  | request {past : layer.PlanHistory} {calls : History layer.system.Op layer.system.Ans}
      {request : sys.Request} {response : sys.Response} {own : History sys.Op sys.Ans}
      (spells : Spells below past calls) (answers : below.answers request response own) :
      Spells below (past ++ [⟨.inl request, response⟩]) (calls ++ own.map Entry.lift)
  | extra {past : layer.PlanHistory} {calls : History layer.system.Op layer.system.Ans}
      (spells : Spells below past calls) (extra : layer.Extra) (answer : layer.ExtraAns extra) :
      Spells below (past ++ [⟨.inr extra, answer⟩]) (calls ++ [⟨.inr extra, answer⟩])

/-- The operations behind an answer that a plan got are among its operations. -/
theorem Spells.answered {below : Discipline sys} {past : layer.PlanHistory}
    {calls : History layer.system.Op layer.system.Ans} (spells : Spells below past calls)
    {request : sys.Request} {response : sys.Response}
    (member : (⟨.inl request, response⟩ : Entry (sys.Request ⊕ layer.Extra) _) ∈ past) :
    ∃ own, below.answers request response own ∧ ∀ entry ∈ own, entry.lift ∈ calls := by
  induction spells with
  | nil => cases member
  | @request past calls request' response' own spells answers ih =>
      rcases List.mem_append.mp member with earlier | last
      · obtain ⟨own', answers', inside⟩ := ih earlier
        exact ⟨own', answers', fun entry entry_mem =>
          List.mem_append_left _ (inside entry entry_mem)⟩
      · obtain ⟨same, same_answer⟩ := Entry.mk.inj (List.mem_singleton.mp last)
        cases same
        obtain rfl := eq_of_heq same_answer
        exact ⟨own, answers, fun entry entry_mem =>
          List.mem_append_right _ (List.mem_map_of_mem entry_mem)⟩
  | extra spells extra answer ih =>
      rcases List.mem_append.mp member with earlier | last
      · obtain ⟨own', answers', inside⟩ := ih earlier
        exact ⟨own', answers', fun entry entry_mem =>
          List.mem_append_left _ (inside entry entry_mem)⟩
      · obtain ⟨impossible, -⟩ := Entry.mk.inj (List.mem_singleton.mp last)
        cases impossible

theorem Spells.mono {below below' : Discipline sys} {past : layer.PlanHistory}
    {calls : History layer.system.Op layer.system.Ans} (spells : Spells below past calls)
    (weaker : ∀ request response own, below.answers request response own →
      below'.answers request response own) : Spells below' past calls := by
  induction spells with
  | nil => exact .nil
  | request spells answers ih => exact ih.request (weaker _ _ _ answers)
  | extra spells extra answer ih => exact ih.extra extra answer

/-- What a request of the layer may call: an operation of a request of the system that its plan may
make, or an operation of the layer. -/
def May (below : Discipline sys) (may : layer.PlanHistory → sys.Request ⊕ layer.Extra → Prop)
    (calls : History layer.system.Op layer.system.Ans) : layer.system.Op → Prop
  | .inl op => ∃ past before own request,
      Spells below past before ∧ calls = before ++ own.map Entry.lift ∧
        may past (.inl request) ∧ below.may request own op
  | .inr extra => ∃ past, Spells below past calls ∧ may past (.inr extra)

theorem follows_expand {α : Type} {below : Discipline sys}
    {may : layer.PlanHistory → sys.Request ⊕ layer.Extra → Prop} {plan : layer.Plan α}
    {post : α → layer.PlanHistory → Prop} {past : layer.PlanHistory}
    {calls : History layer.system.Op layer.system.Ans} (spells : Spells below past calls)
    (follows : plan.Follows may past post) :
    (plan.expand layer.carry).Follows (May below may) calls
      (fun value calls => ∃ past, Spells below past calls ∧ post value past) := by
  induction plan generalizing past calls with
  | answer value => exact ⟨past, spells, follows⟩
  | call call next ih =>
      obtain ⟨allowed, rest⟩ := follows
      rw [Program.expand, Program.follows_bind]
      cases call with
      | inr extra =>
          refine ⟨⟨past, spells, allowed⟩, fun answer => ?_⟩
          exact ih answer (spells.extra extra answer) (rest answer)
      | inl request =>
          have lifted : (sys.serve request).lift.Follows _ (calls ++ [].map Entry.lift) _ :=
            (below.follows request).lift
          rw [List.map_nil, List.append_nil] at lifted
          refine (lifted.weaken ?_).mono ?_
          · rintro _ _ ⟨own, op, rfl, rfl, may_own⟩
            exact ⟨past, calls, own, request, spells, rfl, allowed, may_own⟩
          · rintro response _ ⟨own, rfl, answers⟩
            exact ih response (spells.request answers) (rest response)

/-- The discipline of a layer. -/
def Manners.discipline (manners : layer.Manners) (below : Discipline sys) :
    Discipline layer.system where
  may request := May below (manners.may request)
  answers request response calls :=
    ∃ past, Spells below past calls ∧ manners.answers request response past
  follows request := follows_expand .nil (manners.follows request)

end Layer
end Interleaving
