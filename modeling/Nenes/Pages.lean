import Mathlib.Data.List.Basic
import Nenes.WebService

set_option autoImplicit false

namespace Nenes

open ByteBuf Runs

-- Which commands list the registry before they send. A watch request ends before
-- its listing, and NFileCommand lists when its sends are over.
def WebRequest.listsFirst : WebRequest → Bool
  | .frames (.operation _) => true
  | .frames (.noperation message) => message.msg ≠ some (ofString "watch")
  | .frames (.nfile _ _) => false
  | .file _ => true

-- A request is in its loop over ChannelManager.map.entrySet(), with the modCount its
-- iterator expects and the entries it has left, or that loop has thrown a
-- ConcurrentModificationException, or it sends under its number in the service.
inductive PageStage where
  | listing (expectedModCount remaining : Nat)
  | cut
  | sending (n : Nat)
deriving DecidableEq, Repr

structure Page where
  request : WebRequest
  stage : PageStage

structure Pages (Ch : Type) where
  service : WebService Ch
  modCount : Nat
  pages : List Page

inductive PageAction (Ch : Type) where
  | service (action : ServiceAction Ch)
  | next (p : Nat)

-- hasNext, and next where there is an entry: only next looks at modCount.
def PageStage.next (modCount number : Nat) : PageStage → PageStage
  | .listing _ 0 => .sending number
  | .listing expected (remaining + 1) => if modCount = expected then .listing expected remaining else .cut
  | .cut => .cut
  | .sending n => .sending n

def Page.next (modCount number : Nat) (page : Page) : Page := { page with stage := page.stage.next modCount number }

-- What the service sees of the turn: a request whose loop is over begins to send.
def Page.begins {Ch : Type} (page : Page) : List (ServiceAction Ch) :=
  match page.stage with
  | .listing _ 0 => [.request page.request]
  | _ => []

variable {Ch : Type} [DecidableEq Ch]

namespace Pages

def start : Pages Ch := ⟨WebService.start, 0, []⟩

def entries (s : Pages Ch) : Nat := s.service.server.map.keys.card

omit [DecidableEq Ch] in
def meaning (s : Pages Ch) : PageAction Ch → List (ServiceAction Ch)
  | .service (.request request) => if request.listsFirst then [] else [.request request]
  | .service action => [action]
  | .next p => (s.pages[p]?).elim [] Page.begins

def opened (s : Pages Ch) (request : WebRequest) : Page :=
  ⟨request, if request.listsFirst then .listing s.modCount s.entries else .sending s.service.requests.length⟩

def turned (s : Pages Ch) : PageAction Ch → List Page
  | .service (.request request) => s.pages ++ [s.opened request]
  | .service _ => s.pages
  | .next p => s.pages.modify p (Page.next s.modCount s.service.requests.length)

-- A put of a new key and a remove of a present one count in the HashMap's modCount,
-- a put that replaces a value does not.
def step [FileSystem] (id : Ch → JString) (secure : Ch → Bool) (s : Pages Ch) (action : PageAction Ch) : Pages Ch :=
  let service := run (WebService.step id secure) s.service (s.meaning action)
  { service
    modCount := if service.server.map.keys = s.service.server.map.keys then s.modCount else s.modCount + 1
    pages := s.turned action }

theorem mod_count_step [FileSystem] (id : Ch → JString) (secure : Ch → Bool) (s : Pages Ch) (action : PageAction Ch) :
    s.modCount ≤ (s.step id secure action).modCount := by
  rw [step]
  split
  · exact Nat.le_refl _
  · exact Nat.le_succ _

end Pages

def reachedPages [FileSystem] (id : Ch → JString) (secure : Ch → Bool) (actions : List (PageAction Ch)) : Pages Ch :=
  run (Pages.step id secure) Pages.start actions

theorem reached_pages_step [FileSystem] (id : Ch → JString) (secure : Ch → Bool) (before : List (PageAction Ch))
    (action : PageAction Ch) :
    reachedPages id secure (before ++ [action]) = (reachedPages id secure before).step id secure action := by
  rw [reachedPages, run_append]
  rfl

theorem reached_pages_run [FileSystem] (id : Ch → JString) (secure : Ch → Bool) (before after : List (PageAction Ch))
    (action : PageAction Ch) :
    reachedPages id secure (before ++ action :: after) =
      run (Pages.step id secure) (reachedPages id secure (before ++ [action])) after := by
  rw [reachedPages, reachedPages, ← run_append, List.append_assoc]
  rfl

-- The service takes what its requests' pages pass on to it, and nothing else.
theorem pages_service [FileSystem] (id : Ch → JString) (secure : Ch → Bool) (s : Pages Ch) (actions : List (PageAction Ch)) :
    (run (Pages.step id secure) s actions).service =
      run (WebService.step id secure) s.service (expand (Pages.step id secure) Pages.meaning s actions) :=
  simulation_expand (Pages.step id secure) (WebService.step id secure) Pages.meaning (fun pages service => pages.service = service)
    (fun s t action same => by rw [← same]; rfl) s s.service actions rfl

omit [DecidableEq Ch] in
theorem meaning_service (s : Pages Ch) (action : ServiceAction Ch) :
    s.meaning (.service action) = [action] ∨ ((∃ request, action = .request request) ∧ s.meaning (.service action) = []) := by
  cases action with
  | request request =>
      rw [Pages.meaning]
      split
      · exact .inr ⟨⟨request, rfl⟩, rfl⟩
      · exact .inl rfl
  | _ => exact .inl rfl

omit [DecidableEq Ch] in
theorem meaning_next (s : Pages Ch) (p : Nat) : s.meaning (.next p) = [] ∨ ∃ request, s.meaning (.next p) = [.request request] := by
  rw [Pages.meaning]
  cases s.pages[p]? with
  | none => exact .inl rfl
  | some page =>
      obtain ⟨request, stage⟩ := page
      cases stage with
      | listing expected remaining =>
          cases remaining with
          | zero => exact .inr ⟨request, rfl⟩
          | succ remaining => exact .inl rfl
      | cut => exact .inl rfl
      | sending n => exact .inl rfl

-- The service takes the action itself, a page's request, or nothing.
theorem meant_step [FileSystem] (id : Ch → JString) (secure : Ch → Bool) (s : Pages Ch) (action : PageAction Ch)
    (holds : WebService Ch → Prop) (kept : holds s.service)
    (taken : ∀ one, action = .service one → holds (s.service.step id secure one))
    (accepted : ∀ request, holds (s.service.step id secure (.request request))) : holds (s.step id secure action).service := by
  rw [Pages.step]
  cases action with
  | service one =>
      rcases meaning_service s one with same | ⟨_, nothing⟩
      · rw [same]
        exact taken one rfl
      · rwa [nothing]
  | next p =>
      rcases meaning_next s p with nothing | ⟨request, same⟩
      · rwa [nothing]
      · rw [same]
        exact accepted request

-- What an action does to one page: it is opened, takes a turn of its loop, or stays.
theorem page_kept [FileSystem] (id : Ch → JString) (secure : Ch → Bool) (s : Pages Ch) (action : PageAction Ch) (p : Nat)
    (page : Page) (present : s.pages[p]? = some page) :
    (action = .next p ∧ (s.step id secure action).pages[p]? = some (page.next s.modCount s.service.requests.length)) ∨
      (action ≠ .next p ∧ (s.step id secure action).pages[p]? = some page) := by
  cases action with
  | service action =>
      refine .inr ⟨nofun, ?_⟩
      cases action with
      | request request => exact (List.getElem?_append_left (List.getElem?_eq_some_iff.mp present).1).trans present
      | _ => exact present
  | next q =>
      rw [Pages.step, Pages.turned]
      by_cases same : q = p
      · subst same
        refine .inl ⟨rfl, ?_⟩
        rw [List.getElem?_modify_eq, present]
        rfl
      · refine .inr ⟨fun own => same (PageAction.next.inj own), ?_⟩
        rw [List.getElem?_modify_ne _ _ same, present]

end Nenes
