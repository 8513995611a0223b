import Mathlib.Data.List.Forall2
import Mathlib.Data.List.Induction
import LanBunker.Relational.Lookup

/-!
# The question before an action

The backoffice asks before a form with `data-confirm` is sent.  The page is a machine over the
events of the browser, in any order: nothing is sent that was not asked for and confirmed, and
nothing twice.
-/

namespace LanBunker

/-- `ARM_DELAY_MS`: a question shows for this long before "yes" takes a click. -/
def armDelayMs : Nat := 400

namespace ConfirmForm

/-- `template#confirm-prompt`, which may be absent, or lack the text or one of the two buttons. -/
inductive Template where
  | missing
  | malformed
  | whole
  deriving DecidableEq, Repr

/-- One question, from `ask` on.  `timer` is the timeout that arms "yes", and `sending` the variable
of its closure. -/
structure Prompt where
  id : Nat
  form : Nat
  shownAt : Nat
  attached : Bool
  yesDisabled : Bool
  noDisabled : Bool
  timer : Bool
  sending : Bool
  deriving DecidableEq, Repr

namespace Prompt

/-- A question that shows from now on, with the focus on "no". -/
def new (id form now : Nat) : Prompt :=
  { id, form, shownAt := now, attached := true, yesDisabled := true, noDisabled := false
    timer := true, sending := false }

variable (prompt : Prompt)

/-- It leaves the page, and its timeout is cleared. -/
def takenBack : Prompt := { prompt with attached := false, timer := false }

/-- The timeout ran. -/
def armed : Prompt := { prompt with yesDisabled := false, timer := false }

/-- The form is on its way, and both answers are off. -/
def sent : Prompt := { prompt with sending := true, yesDisabled := true, noDisabled := true }

end Prompt

/-- What `ask` returns.  Without a usable template it is `() => true`. -/
inductive Close where
  | nothing
  | prompt (id : Nat)
  deriving DecidableEq, Repr

/-- A form that the browser sent. -/
structure Send where
  form : Nat
  time : Nat
  deriving DecidableEq, Repr

structure Page where
  template : Template
  now : Nat
  prompts : List Prompt
  closeOpen : Option Close
  asked : Nat
  /-- The forms whose buttons are hidden. -/
  isHidden : Nat → Bool
  /-- `data-confirmed` of a form. -/
  isConfirmed : Nat → Bool
  sends : List Send

/-- What can happen to the page.  The browser sends `submit` for a click on an action and for Enter
in a field. -/
inductive Event where
  | submit (form : Nat)
  | keydown (isEscape : Bool)
  | pageshow (persisted : Bool)
  /-- The timeout of a question runs. -/
  | arm (id : Nat)
  /-- A click on "yes", and what `reportValidity` answers. -/
  | yes (id : Nat) (isValid : Bool)
  | no (id : Nat)
  /-- Some milliseconds pass. -/
  | wait (elapsed : Nat)
  deriving DecidableEq, Repr

namespace Page

def start (template : Template) : Page where
  template := template
  now := 0
  prompts := []
  closeOpen := none
  asked := 0
  isHidden := fun _ => false
  isConfirmed := fun _ => false
  sends := []

variable (page : Page)

def prompt? (id : Nat) : Option Prompt := page.prompts.find? fun prompt => prompt.id = id

/-- One question is written. -/
def write (id : Nat) (change : Prompt → Prompt) : List Prompt :=
  page.prompts.map fun prompt => if prompt.id = id then change prompt else prompt

/-- The question is in the page. -/
def isAsking (form : Nat) : Bool :=
  page.prompts.any fun prompt => prompt.attached && prompt.form == form

def ask (form : Nat) : Page :=
  let asked := page.asked + 1
  if page.template = .whole then
    { page with
      asked
      prompts := page.prompts ++ [.new asked form page.now]
      isHidden := Function.update page.isHidden form true
      closeOpen := some (.prompt asked) }
  else { page with asked, closeOpen := some .nothing }

/-- Takes the question back and answers whether it did.  Once "yes" has sent the form only `sent`
does. -/
def close (sent : Bool) : Close → Bool × Page
  | .nothing => (true, page)
  | .prompt id =>
      match page.prompt? id with
      | none => (true, page)
      | some prompt =>
          if prompt.sending && !sent then (false, page)
          else
            (true,
              { page with
                prompts := page.write id Prompt.takenBack
                isHidden := Function.update page.isHidden prompt.form false
                closeOpen := none })

/-- The browser sends a form whose submit event nobody prevents. -/
def send (form : Nat) : Page := { page with sends := page.sends ++ [⟨form, page.now⟩] }

/-- The listener of a submit event.  Without a template there is none. -/
def submit (form : Nat) : Page :=
  if page.template = .missing || page.isConfirmed form then page.send form
  else if page.isAsking form then page
  else
    match page.closeOpen with
    | none => page.ask form
    | some close =>
        match page.close false close with
        | (false, page) => page
        | (true, page) => page.ask form

def flag (form : Nat) (confirmed : Bool) : Page :=
  { page with isConfirmed := Function.update page.isConfirmed form confirmed }

/-- The flag is set while `requestSubmit` runs the submit event. -/
def requestSubmit (form : Nat) : Page := ((page.flag form true).submit form).flag form false

/-- `closeOpen?.()`. -/
def closeOpen? (sent : Bool) : Page :=
  match page.closeOpen with
  | none => page
  | some close => (page.close sent close).2

def step (page : Page) : Event → Page
  | .submit form => page.submit form
  | .keydown isEscape => if isEscape then page.closeOpen? false else page
  | .pageshow persisted => if persisted then page.closeOpen? true else page
  | .arm id =>
      match page.prompt? id with
      | none => page
      | some prompt =>
          if prompt.timer && prompt.shownAt + armDelayMs ≤ page.now then
            { page with prompts := page.write id Prompt.armed }
          else page
  | .yes id isValid =>
      match page.prompt? id with
      | none => page
      | some prompt =>
          if !prompt.attached || prompt.yesDisabled then page
          else if !isValid then (page.close false (.prompt id)).2
          else { page with prompts := page.write id Prompt.sent }.requestSubmit prompt.form
  | .no id =>
      match page.prompt? id with
      | none => page
      | some prompt =>
          if !prompt.attached || prompt.noDisabled then page
          else (page.close false (.prompt id)).2
  | .wait elapsed => { page with now := page.now + elapsed }

def run (page : Page) (events : List Event) : Page := events.foldl step page

end Page

/-! ## One question at a time -/

/-- What a page is for: the questions of the past, at most one that shows, and what was sent. -/
structure Desk where
  now : Nat
  past : List Prompt
  current : Option Prompt
  sends : List Send

namespace Desk

/-- What an event may do. -/
inductive Move : Event → Desk → Desk → Prop where
  | stay (event : Event) (desk : Desk) : Move event desk desk
  | wait (elapsed : Nat) (desk : Desk) :
      Move (.wait elapsed) desk { desk with now := desk.now + elapsed }
  | ask (form id now : Nat) (past : List Prompt) (sends : List Send) :
      Move (.submit form) ⟨now, past, none, sends⟩ ⟨now, past, some (.new id form now), sends⟩
  | replace (form id now : Nat) (past : List Prompt) (prompt : Prompt) (sends : List Send)
      (unsent : prompt.sending = false) :
      Move (.submit form) ⟨now, past, some prompt, sends⟩
        ⟨now, past ++ [prompt.takenBack], some (.new id form now), sends⟩
  | withdraw (event : Event) (now : Nat) (past : List Prompt) (prompt : Prompt)
      (sends : List Send) (may : event = .pageshow true ∨ prompt.sending = false) :
      Move event ⟨now, past, some prompt, sends⟩ ⟨now, past ++ [prompt.takenBack], none, sends⟩
  | arm (now : Nat) (past : List Prompt) (prompt : Prompt) (sends : List Send)
      (timed : prompt.timer = true) (due : prompt.shownAt + armDelayMs ≤ now) :
      Move (.arm prompt.id) ⟨now, past, some prompt, sends⟩ ⟨now, past, some prompt.armed, sends⟩
  | send (now : Nat) (past : List Prompt) (prompt : Prompt) (sends : List Send)
      (enabled : prompt.yesDisabled = false) :
      Move (.yes prompt.id true) ⟨now, past, some prompt, sends⟩
        ⟨now, past, some prompt.sent, sends ++ [⟨prompt.form, now⟩]⟩

end Desk

namespace Page

/-- A page with a template shows a desk. -/
structure Shows (page : Page) (desk : Desk) : Prop where
  usable : page.template ≠ .missing
  now : page.now = desk.now
  sends : page.sends = desk.sends
  prompts : page.prompts = desk.past ++ desk.current.toList
  past : ∀ prompt ∈ desk.past, prompt.attached = false ∧ prompt.timer = false
  current : ∀ prompt ∈ desk.current, prompt.attached = true ∧
    page.closeOpen = some (.prompt prompt.id)
  idle : desk.current = none → page.closeOpen = none ∨ page.closeOpen = some .nothing
  ids : (page.prompts.map Prompt.id).Nodup
  numbered : ∀ prompt ∈ page.prompts, prompt.id ≤ page.asked
  hidden : ∀ form, page.isHidden form = desk.current.any fun prompt => prompt.form == form
  flags : page.isConfirmed = fun _ => false

namespace Shows

variable {page : Page} {desk : Desk} {now : Nat} {past : List Prompt} {prompt : Prompt}
  {sends : List Send}

theorem start {template : Template} (usable : template ≠ .missing) :
    (Page.start template).Shows ⟨0, [], none, []⟩ where
  usable := usable
  now := rfl
  sends := rfl
  prompts := rfl
  past prompt member := by cases member
  current prompt member := by cases member
  idle _ := Or.inl rfl
  ids := List.nodup_nil
  numbered prompt member := by cases member
  hidden _ := rfl
  flags := rfl

theorem prompts_eq (shows : page.Shows ⟨now, past, some prompt, sends⟩) :
    page.prompts = past ++ [prompt] := shows.prompts

/-- A question that is found and still in the page is the one that shows. -/
theorem found {desk : Desk} (shows : page.Shows desk) {id : Nat}
    (found : page.prompt? id = some prompt) (there : prompt.attached || prompt.timer) :
    desk.current = some prompt ∧ prompt.id = id := by
  obtain ⟨member, named⟩ := Relational.find?_key_eq_some found
  rw [shows.prompts, List.mem_append] at member
  rcases member with past | current
  · obtain ⟨detached, untimed⟩ := shows.past prompt past
    rw [detached, untimed] at there
    cases there
  · exact ⟨Option.mem_toList.mp current, named⟩

/-- The one that shows is found. -/
theorem prompt?_eq (shows : page.Shows ⟨now, past, some prompt, sends⟩) :
    page.prompt? prompt.id = some prompt := by
  have member : prompt ∈ page.prompts := by
    rw [shows.prompts_eq]
    exact List.mem_append_right _ (List.mem_singleton_self prompt)
  exact Relational.find?_key_of_mem shows.ids member

/-- A write to it is the only one. -/
theorem write_eq (shows : page.Shows ⟨now, past, some prompt, sends⟩)
    (change : Prompt → Prompt) : page.write prompt.id change = past ++ [change prompt] := by
  have ids := shows.ids
  rw [shows.prompts_eq, List.map_append, List.map_singleton] at ids
  have others : ∀ other ∈ past, other.id ≠ prompt.id := fun other member same =>
    (List.nodup_append.mp ids).2.2 other.id (List.mem_map_of_mem member) prompt.id
      (List.mem_singleton_self _) same
  rw [write, shows.prompts_eq, List.map_append, List.map_singleton, if_pos rfl]
  congr 1
  refine (List.map_congr_left fun other member => if_neg (others other member)).trans ?_
  exact List.map_id' past

theorem isAsking_eq (shows : page.Shows desk) (form : Nat) :
    page.isAsking form = desk.current.any fun prompt => prompt.form == form := by
  have none_past :
      (desk.past.any fun prompt => prompt.attached && prompt.form == form) = false := by
    rw [List.any_eq_false]
    intro prompt member
    rw [(shows.past prompt member).1, Bool.false_and]
    exact Bool.false_ne_true
  rw [isAsking, shows.prompts, List.any_append, none_past, Bool.false_or]
  cases current : desk.current with
  | none => rfl
  | some prompt =>
      have attached := (shows.current prompt current).1
      simp [attached]

/-- A write to the question that shows, which stays where it is. -/
theorem writes (shows : page.Shows ⟨now, past, some prompt, sends⟩) {change : Prompt → Prompt}
    (same : (change prompt).id = prompt.id ∧ (change prompt).form = prompt.form)
    (attached : (change prompt).attached = true) :
    { page with prompts := page.write prompt.id change }.Shows
      ⟨now, past, some (change prompt), sends⟩ where
  usable := shows.usable
  now := shows.now
  sends := shows.sends
  prompts := shows.write_eq change
  past := shows.past
  current other member := by
    obtain rfl := Option.mem_some.mp member
    rw [same.1]
    exact ⟨attached, (shows.current prompt rfl).2⟩
  idle nothing := by cases nothing
  ids := by
    have ids := shows.ids
    rw [shows.prompts_eq, List.map_append, List.map_singleton] at ids
    rw [shows.write_eq, List.map_append, List.map_singleton, same.1]
    exact ids
  numbered other member := by
    have numbered := shows.numbered
    rw [shows.prompts_eq] at numbered
    rw [shows.write_eq] at member
    rcases List.mem_append.mp member with past | last
    · exact numbered other (List.mem_append_left _ past)
    · rw [List.mem_singleton.mp last, same.1]
      exact numbered prompt (List.mem_append_right _ (List.mem_singleton_self prompt))
  hidden form := by
    rw [shows.hidden, Option.any_some, Option.any_some, same.2]
  flags := shows.flags

/-- The question that shows is taken back, unless it was sent. -/
theorem close (shows : page.Shows ⟨now, past, some prompt, sends⟩) (sent : Bool) :
    if prompt.sending && !sent then page.close sent (.prompt prompt.id) = (false, page)
    else ∃ after, page.close sent (.prompt prompt.id) = (true, after) ∧
      after.Shows ⟨now, past ++ [prompt.takenBack], none, sends⟩ := by
  rw [Page.close, shows.prompt?_eq]
  dsimp only
  split_ifs with waits
  · rfl
  · refine ⟨_, rfl, ?_⟩
    have written := shows.write_eq Prompt.takenBack
    have ids := shows.ids
    have numbered := shows.numbered
    rw [shows.prompts_eq] at ids numbered
    constructor
    · exact shows.usable
    · exact shows.now
    · exact shows.sends
    · exact written.trans (List.append_nil _).symm
    · intro other member
      rcases List.mem_append.mp member with old | last
      · exact shows.past other old
      · rw [List.mem_singleton.mp last]
        exact ⟨rfl, rfl⟩
    · intro other member
      cases member
    · exact fun _ => Or.inl rfl
    · dsimp only
      rw [written, List.map_append, List.map_singleton]
      rwa [List.map_append, List.map_singleton] at ids
    · intro other member
      dsimp only at member
      rw [written] at member
      rcases List.mem_append.mp member with old | last
      · exact numbered other (List.mem_append_left _ old)
      · rw [List.mem_singleton.mp last]
        exact numbered prompt (List.mem_append_right _ (List.mem_singleton_self prompt))
    · intro form
      have hidden := shows.hidden form
      rw [Option.any_some] at hidden
      dsimp only
      by_cases same : form = prompt.form
      · rw [same, Function.update_self]
        rfl
      · rw [Function.update_of_ne same, hidden]
        exact beq_false_of_ne (Ne.symm same)
    · exact shows.flags

/-- A question is asked while none shows, or the template is of no use. -/
theorem ask (shows : page.Shows ⟨now, past, none, sends⟩) (form : Nat) :
    (page.ask form).Shows ⟨now, past, none, sends⟩ ∨
      ∃ id, (page.ask form).Shows ⟨now, past, some (.new id form now), sends⟩ := by
  have numbered := shows.numbered
  by_cases whole : page.template = .whole
  · refine Or.inr ⟨page.asked + 1, ?_⟩
    have prompts : page.prompts = past := shows.prompts.trans (List.append_nil past)
    rw [Page.ask, if_pos whole]
    constructor
    · exact shows.usable
    · exact shows.now
    · exact shows.sends
    · exact congrArg₂ (· ++ ·) prompts (congrArg (fun now => [Prompt.new _ form now]) shows.now)
    · exact shows.past
    · intro prompt member
      obtain rfl := Option.mem_some.mp member
      exact ⟨rfl, rfl⟩
    · intro nothing
      cases nothing
    · refine Relational.nodup_keys_concat shows.ids fun other member same => ?_
      have le := numbered other member
      rw [same] at le
      exact absurd le (Nat.not_succ_le_self page.asked)
    · intro prompt member
      rcases List.mem_append.mp member with old | last
      · exact Nat.le_succ_of_le (numbered prompt old)
      · rw [List.mem_singleton.mp last]
        exact Nat.le_refl _
    · intro other
      have hidden := shows.hidden other
      dsimp only
      by_cases same : other = form
      · rw [same, Function.update_self]
        exact (beq_self_eq_true form).symm
      · rw [Function.update_of_ne same, hidden]
        exact (beq_false_of_ne (Ne.symm same)).symm
    · exact shows.flags
  · rw [Page.ask, if_neg whole]
    exact Or.inl
      { shows with
        current := fun prompt member => by cases member
        idle := fun _ => Or.inr rfl
        numbered := fun prompt member => Nat.le_succ_of_le (numbered prompt member) }

/-- What closes a question from outside takes it back, unless it was sent. -/
theorem closes (shows : page.Shows desk) {event : Event} {sent : Bool}
    (may : sent = true → event = .pageshow true) :
    ∃ after, (page.closeOpen? sent).Shows after ∧ Desk.Move event desk after := by
  obtain ⟨now, past, current, sends⟩ := desk
  cases current with
  | none =>
      refine ⟨_, ?_, .stay event _⟩
      rw [closeOpen?]
      rcases shows.idle rfl with none_open | stub
      · rwa [none_open]
      · rwa [stub]
  | some prompt =>
      have taken := shows.close sent
      rw [closeOpen?, (shows.current prompt rfl).2]
      split_ifs at taken with waits
      · refine ⟨_, ?_, .stay event _⟩
        dsimp only
        rwa [taken]
      · obtain ⟨after, closed, shows_after⟩ := taken
        refine ⟨_, ?_, .withdraw event now past prompt sends ?_⟩
        · dsimp only
          rwa [closed]
        · cases sent with
          | true => exact Or.inl (may rfl)
          | false => exact Or.inr (by simpa using waits)

theorem submit (shows : page.Shows desk) (form : Nat) :
    ∃ after, (page.submit form).Shows after ∧ Desk.Move (.submit form) desk after := by
  have no_send : (decide (page.template = .missing) || page.isConfirmed form) = false := by
    rw [shows.flags, decide_eq_false shows.usable]
    rfl
  rw [Page.submit, no_send, if_neg Bool.false_ne_true]
  split_ifs with asking
  · exact ⟨desk, shows, .stay _ desk⟩
  obtain ⟨now, past, current, sends⟩ := desk
  cases current with
  | none =>
      have asks : ∃ after, (page.ask form).Shows after ∧
          Desk.Move (.submit form) ⟨now, past, none, sends⟩ after := by
        rcases shows.ask form with nothing | ⟨id, asked⟩
        · exact ⟨_, nothing, .stay _ _⟩
        · exact ⟨_, asked, .ask form id now past sends⟩
      rcases shows.idle rfl with none_open | stub
      · rwa [none_open]
      · rwa [stub]
  | some prompt =>
      have taken := shows.close false
      rw [(shows.current prompt rfl).2]
      split_ifs at taken with waits
      · dsimp only
        rw [taken]
        exact ⟨_, shows, .stay _ _⟩
      · obtain ⟨after, closed, shows_after⟩ := taken
        have unsent : prompt.sending = false := by simpa using waits
        dsimp only
        rw [closed]
        rcases shows_after.ask form with nothing | ⟨id, asked⟩
        · exact ⟨_, nothing, .withdraw _ now past prompt sends (Or.inr unsent)⟩
        · exact ⟨_, asked, .replace form id now past prompt sends unsent⟩

/-- A confirmed form is sent while its question shows. -/
theorem requestSubmit (shows : page.Shows ⟨now, past, some prompt, sends⟩) (form : Nat) :
    (page.requestSubmit form).Shows ⟨now, past, some prompt, sends ++ [⟨form, now⟩]⟩ := by
  have flagged : (page.flag form true).isConfirmed form = true := Function.update_self ..
  have reset : Function.update (Function.update page.isConfirmed form true) form false =
      page.isConfirmed := by
    rw [Function.update_idem, shows.flags, Function.update_eq_self_iff]
  rw [Page.requestSubmit, Page.submit, flagged, Bool.or_true, if_pos rfl]
  exact
    { shows with
      sends := congrArg₂ (fun sends now => sends ++ [Send.mk form now]) shows.sends shows.now
      flags := reset.trans shows.flags }

/-- A click on an answer takes the question back, unless it was sent. -/
theorem withdraws (shows : page.Shows ⟨now, past, some prompt, sends⟩) (event : Event) :
    ∃ after, (page.close false (.prompt prompt.id)).2.Shows after ∧
      Desk.Move event ⟨now, past, some prompt, sends⟩ after := by
  have taken := shows.close false
  split_ifs at taken with waits
  · rw [taken]
    exact ⟨_, shows, .stay event _⟩
  · obtain ⟨after, closed, shows_after⟩ := taken
    rw [closed]
    have unsent : prompt.sending = false := by simpa using waits
    exact ⟨_, shows_after, .withdraw event now past prompt sends (Or.inr unsent)⟩

/-- Every event moves the desk of the page. -/
theorem step (shows : page.Shows desk) (event : Event) :
    ∃ after, (page.step event).Shows after ∧ Desk.Move event desk after := by
  have stays : ∃ after, page.Shows after ∧ Desk.Move event desk after :=
    ⟨desk, shows, .stay event desk⟩
  cases event with
  | submit form => exact shows.submit form
  | keydown isEscape =>
      cases isEscape with
      | false => exact stays
      | true => exact shows.closes fun impossible => by cases impossible
  | pageshow persisted =>
      cases persisted with
      | false => exact stays
      | true => exact shows.closes fun _ => rfl
  | arm id =>
      rw [Page.step]
      split
      · exact stays
      rename_i prompt found
      split_ifs with due
      · simp only [Bool.and_eq_true, decide_eq_true_eq] at due
        obtain ⟨current, rfl⟩ := shows.found found (by rw [due.1, Bool.or_true])
        obtain ⟨now, past, shown, sends⟩ := desk
        obtain rfl : shown = some prompt := current
        have due_now := due.2
        rw [shows.now] at due_now
        exact ⟨_, shows.writes ⟨rfl, rfl⟩ (shows.current prompt rfl).1,
          .arm now past prompt sends due.1 due_now⟩
      · exact stays
  | yes id isValid =>
      rw [Page.step]
      split
      · exact stays
      rename_i prompt found
      split_ifs with off invalid
      · exact stays
      all_goals
        simp only [Bool.or_eq_true, Bool.not_eq_true', not_or, Bool.not_eq_false,
          Bool.not_eq_true] at off
        obtain ⟨current, rfl⟩ := shows.found found (by rw [off.1, Bool.true_or])
        obtain ⟨now, past, shown, sends⟩ := desk
        obtain rfl : shown = some prompt := current
      · exact shows.withdraws _
      · obtain rfl : isValid = true := by simpa using invalid
        have written : { page with prompts := page.write prompt.id Prompt.sent }.Shows
            ⟨now, past, some prompt.sent, sends⟩ :=
          shows.writes ⟨rfl, rfl⟩ (shows.current prompt rfl).1
        exact ⟨_, written.requestSubmit prompt.form, .send now past prompt sends off.2⟩
  | no id =>
      rw [Page.step]
      split
      · exact stays
      rename_i prompt found
      split_ifs with off
      · exact stays
      · simp only [Bool.or_eq_true, Bool.not_eq_true', not_or, Bool.not_eq_false] at off
        obtain ⟨current, rfl⟩ := shows.found found (by rw [off.1, Bool.true_or])
        obtain ⟨now, past, shown, sends⟩ := desk
        obtain rfl : shown = some prompt := current
        exact shows.withdraws _
  | wait elapsed =>
      have later : page.now + elapsed = desk.now + elapsed := congrArg (· + elapsed) shows.now
      exact ⟨{ desk with now := desk.now + elapsed }, { shows with now := later },
        .wait elapsed desk⟩

end Shows
end Page

/-! ## What is sent -/

/-- The question had shown long enough when its form was sent. -/
def Confirms (send : Send) (prompt : Prompt) : Prop :=
  send.form = prompt.form ∧ prompt.shownAt + armDelayMs ≤ send.time

/-- The browser brings the page back out of its cache. -/
def Event.isReturn : Event → Bool
  | .pageshow persisted => persisted
  | _ => false

namespace Desk

/-- The questions asked so far, the one that shows last. -/
def questions (desk : Desk) : List Prompt := desk.past ++ desk.current.toList

/-- A question whose form is on its way. -/
def pending (desk : Desk) : Nat := if desk.current.any Prompt.sending then 1 else 0

/-- "yes" takes a click only on an unsent question that showed long enough, and what was sent is
what was confirmed. -/
structure Sound (desk : Desk) : Prop where
  due : ∀ prompt ∈ desk.current, prompt.yesDisabled = false →
    prompt.shownAt + armDelayMs ≤ desk.now ∧ prompt.sending = false ∧ prompt.timer = false
  timed : ∀ prompt ∈ desk.current, prompt.timer = true → prompt.sending = false
  confirmed : List.Forall₂ Confirms desk.sends (desk.questions.filter Prompt.sending)

variable {desk after : Desk} {event : Event}

/-- What a question says of its form and its time stays. -/
theorem confirmed_last {sends : List Send} {past : List Prompt} (prompt : Prompt) {other : Prompt}
    (same : other.sending = prompt.sending ∧ other.form = prompt.form ∧
      other.shownAt = prompt.shownAt)
    (confirmed : List.Forall₂ Confirms sends ((past ++ [prompt]).filter Prompt.sending)) :
    List.Forall₂ Confirms sends ((past ++ [other]).filter Prompt.sending) := by
  let key : Prompt → Nat × Nat := fun prompt => (prompt.form, prompt.shownAt)
  let meets : Send → Nat × Nat → Prop := fun send asked =>
    send.form = asked.1 ∧ asked.2 + armDelayMs ≤ send.time
  have keys : ((past ++ [other]).filter Prompt.sending).map key =
      ((past ++ [prompt]).filter Prompt.sending).map key := by
    obtain ⟨sending, form, shownAt⟩ := same
    rw [List.filter_append, List.filter_append, List.map_append, List.map_append]
    cases sent : prompt.sending <;> simp [key, sending, sent, form, shownAt]
  have by_key : ∀ prompts, List.Forall₂ Confirms sends prompts ↔
      List.Forall₂ meets sends (prompts.map key) := fun prompts => by
    rw [List.forall₂_map_right_iff]
    rfl
  rwa [by_key, keys, ← by_key]

/-- A question that was not sent adds nothing. -/
theorem filter_unsent {past : List Prompt} {prompt : Prompt} (unsent : prompt.sending = false) :
    (past ++ [prompt]).filter Prompt.sending = past.filter Prompt.sending := by
  simp [List.filter_append, unsent]

theorem Sound.move (sound : desk.Sound) (move : Move event desk after) : after.Sound := by
  cases move with
  | stay => exact sound
  | wait elapsed =>
      exact
        { sound with
          due := fun prompt member enabled =>
            ⟨Nat.le_add_right_of_le (sound.due prompt member enabled).1,
              (sound.due prompt member enabled).2⟩ }
  | ask form id now past sends =>
      have confirmed : List.Forall₂ Confirms sends (past.filter Prompt.sending) := by
        rw [← List.append_nil past]
        exact sound.confirmed
      refine ⟨?_, ?_, ?_⟩
      · rintro prompt ⟨⟩ enabled
        cases enabled
      · rintro prompt ⟨⟩ -
        rfl
      · rwa [questions, Option.toList_some, filter_unsent rfl]
  | replace form id now past prompt sends unsent =>
      have confirmed : List.Forall₂ Confirms sends ((past ++ [prompt]).filter Prompt.sending) :=
        sound.confirmed
      refine ⟨?_, ?_, ?_⟩
      · rintro other ⟨⟩ enabled
        cases enabled
      · rintro other ⟨⟩ -
        rfl
      · rw [questions, Option.toList_some, filter_unsent rfl]
        exact confirmed_last prompt ⟨rfl, rfl, rfl⟩ confirmed
  | withdraw event now past prompt sends may =>
      have confirmed : List.Forall₂ Confirms sends ((past ++ [prompt]).filter Prompt.sending) :=
        sound.confirmed
      refine ⟨?_, ?_, ?_⟩
      · rintro other ⟨⟩
      · rintro other ⟨⟩
      · rw [questions, Option.toList_none, List.append_nil]
        exact confirmed_last prompt ⟨rfl, rfl, rfl⟩ confirmed
  | arm now past prompt sends timed due =>
      have confirmed : List.Forall₂ Confirms sends ((past ++ [prompt]).filter Prompt.sending) :=
        sound.confirmed
      have unsent := sound.timed prompt rfl timed
      refine ⟨?_, ?_, ?_⟩
      · rintro other ⟨⟩ -
        exact ⟨due, unsent, rfl⟩
      · rintro other ⟨⟩ impossible
        cases impossible
      · rw [questions, Option.toList_some]
        exact confirmed_last prompt ⟨rfl, rfl, rfl⟩ confirmed
  | send now past prompt sends enabled =>
      obtain ⟨due, unsent, untimed⟩ := sound.due prompt rfl enabled
      have confirmed : List.Forall₂ Confirms sends (past.filter Prompt.sending) := by
        rw [← filter_unsent unsent]
        exact sound.confirmed
      refine ⟨?_, ?_, ?_⟩
      · rintro other ⟨⟩ impossible
        cases impossible
      · rintro other ⟨⟩ timed
        rw [show prompt.sent.timer = false from untimed] at timed
        cases timed
      · rw [questions, Option.toList_some, List.filter_append]
        exact List.rel_append confirmed (.cons ⟨rfl, due⟩ .nil)

theorem pending_le (desk : Desk) : desk.pending ≤ 1 := by
  rw [pending]
  split_ifs
  · exact Nat.le_refl 1
  · exact Nat.zero_le 1

/-- After one send the next waits for the page to come back. -/
theorem Sound.sends_le (sound : desk.Sound) (move : Move event desk after) {sent : Nat}
    (le : desk.sends.length ≤ sent + desk.pending) :
    after.sends.length ≤ sent + [event].countP Event.isReturn + after.pending := by
  have more : ∀ {count : Nat}, desk.sends.length ≤ sent + count →
      desk.sends.length ≤ sent + [event].countP Event.isReturn + count := fun le =>
    Nat.le_trans le (Nat.add_le_add_right (Nat.le_add_right _ _) _)
  have unsent_le : ∀ {prompt}, desk.current = some prompt → prompt.sending = false →
      desk.sends.length ≤ sent := by
    intro prompt current unsent
    rwa [pending, current, Option.any_some, unsent, if_neg Bool.false_ne_true] at le
  cases move with
  | stay => exact more le
  | wait elapsed => exact more le
  | ask form id now past sends => exact more le
  | replace form id now past prompt sends unsent =>
      exact more (Nat.le_add_right_of_le (unsent_le rfl unsent))
  | withdraw event now past prompt sends may =>
      rcases may with rfl | unsent
      · exact Nat.le_trans le (Nat.add_le_add_left (pending_le _) _)
      · exact more (Nat.le_add_right_of_le (unsent_le rfl unsent))
  | arm now past prompt sends timed due =>
      exact more (Nat.le_add_right_of_le (unsent_le rfl (sound.timed prompt rfl timed)))
  | send now past prompt sends enabled =>
      have le := unsent_le rfl (sound.due prompt rfl enabled).2.1
      rw [List.length_append]
      exact Nat.add_le_add_right le 1

end Desk

/-- The start of every page. -/
theorem Desk.Sound.start : Desk.Sound ⟨0, [], none, []⟩ where
  due prompt member := by cases member
  timed prompt member := by cases member
  confirmed := .nil

/-- What events do to a page that shows a desk. -/
theorem exists_desk {page : Page} {desk : Desk} (shows : page.Shows desk) (sound : desk.Sound)
    (events : List Event) :
    ∃ after, (page.run events).Shows after ∧ after.Sound ∧
      after.sends.length ≤ desk.sends.length + events.countP Event.isReturn + after.pending := by
  induction events using List.reverseRecOn with
  | nil => exact ⟨desk, shows, sound, Nat.le_add_right _ _⟩
  | append_singleton events event ih =>
      obtain ⟨middle, shows_middle, sound_middle, le⟩ := ih
      obtain ⟨after, shows_after, move⟩ := shows_middle.step event
      refine ⟨after, ?_, sound_middle.move move, ?_⟩
      · rwa [Page.run, List.foldl_append]
      · rw [List.countP_append, ← Nat.add_assoc]
        exact sound_middle.sends_le move le

/-- Whatever happens on the page, each form that is sent was confirmed by a question of its own that
had shown long enough, and of two sends the page came back between them.  At most one question
shows, and its form alone hides its buttons. -/
theorem sends_confirmed {template : Template} (usable : template ≠ .missing)
    (before events : List Event) :
    let page := (Page.start template).run (before ++ events)
    List.Forall₂ Confirms page.sends (page.prompts.filter Prompt.sending) ∧
      (page.prompts.map Prompt.id).Nodup ∧
      page.sends.length ≤
        ((Page.start template).run before).sends.length + 1 + events.countP Event.isReturn ∧
      page.prompts.countP Prompt.attached ≤ 1 ∧
      ∀ form, page.isHidden form = page.isAsking form := by
  obtain ⟨middle, shows_middle, sound_middle, -⟩ :=
    exists_desk (Page.Shows.start usable) .start before
  obtain ⟨desk, shows, sound, le⟩ := exists_desk shows_middle sound_middle events
  have joined : ((Page.start template).run before).run events =
      (Page.start template).run (before ++ events) := (List.foldl_append ..).symm
  rw [joined] at shows
  refine ⟨?_, shows.ids, ?_, ?_,
    fun form => (shows.hidden form).trans (shows.isAsking_eq form).symm⟩
  · rw [shows.sends, shows.prompts]
    exact sound.confirmed
  · rw [shows.sends, shows_middle.sends]
    have pending_le := desk.pending_le
    omega
  · have past : desk.past.countP Prompt.attached = 0 :=
      List.countP_eq_zero.mpr fun prompt member => by
        rw [(shows.past prompt member).1]
        exact Bool.false_ne_true
    rw [shows.prompts, List.countP_append, past, Nat.zero_add]
    refine Nat.le_trans List.countP_le_length ?_
    cases desk.current with
    | none => exact Nat.zero_le 1
    | some prompt => exact Nat.le_refl 1

/-- A double click on an action, an early "yes", and another action while the first is on its
way. -/
def impatient : List Event :=
  [.submit 0, .submit 0, .yes 1 true, .wait armDelayMs, .arm 1, .yes 1 true, .yes 1 true, .submit 1,
    .keydown true]

/-- One send, and after the page came back the other action is asked for. -/
theorem sends_confirmed_impatient :
    let page := (Page.start .whole).run (impatient ++ [.pageshow true, .submit 1])
    page.sends = [⟨0, 400⟩] ∧ page.isAsking 1 = true ∧
      List.Forall₂ Confirms page.sends (page.prompts.filter Prompt.sending) :=
  ⟨by decide, by decide,
    (sends_confirmed (show Template.whole ≠ .missing by decide) impatient
      [.pageshow true, .submit 1]).1⟩

end ConfirmForm
end LanBunker
