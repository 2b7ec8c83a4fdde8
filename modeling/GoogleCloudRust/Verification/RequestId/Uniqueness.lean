import GoogleCloudRust.Library.Interleaving
import GoogleCloudRust.Model.RequestId

/-! # Request ids are unique

The ledger hands out the numbers of clients, requests and attempts and writes no text. The process
is the ledger with its numbers written out. -/

namespace GoogleCloudRust.RequestId

open Interleaving Text

/-! ## Texts of ids -/

theorem splitLastDot_append (front : List Char) {back : List Char} (h : '.' ∉ back) :
    splitLastDot (front ++ '.' :: back) = some (front ++ ['.'], back) := by
  have hreverse : (front ++ '.' :: back).reverse = back.reverse ++ '.' :: front.reverse := by simp
  rw [splitLastDot, hreverse, splitOnce_append (by simpa using h)]
  simp

theorem existingAttempt_decimal {n : ℕ} (h : n < 2 ^ 32) : existingAttempt (decimal n) = n := by
  rw [existingAttempt, parseU64_decimal (by omega)]
  exact if_pos h

theorem length_randProcessId (random : UInt64) : (randProcessId random).length = 16 := by
  refine Decimal.length_pad ((Nat.length_toDigits_le_iff (by decide) (by decide)).mpr ?_)
  exact random.toNat_lt

/-- Everything of an id up to its attempt. -/
def idBase (random : UInt64) (client : ℕ) (channel : UInt64) (request : ℕ) : List Char :=
  (RequestIdCreator.new random client).clientPrefix ++
    (decimal channel.toNat ++ '.' :: (decimal request ++ ['.']))

variable {random channel channel' : UInt64} {client client' request request' : ℕ}

/-- The dot before the attempt is the last one. -/
theorem idBase_eq_concat (random : UInt64) (client : ℕ) (channel : UInt64) (request : ℕ) :
    ∃ front, idBase random client channel request = front ++ ['.'] :=
  ⟨(RequestIdCreator.new random client).clientPrefix ++
    (decimal channel.toNat ++ '.' :: decimal request), by simp [idBase]⟩

theorem length_idBase_le (hclient : client < 2 ^ 64) (hrequest : request < 2 ^ 64) :
    (idBase random client channel request).length ≤ 118 := by
  have hchannel := channel.toNat_lt
  have hlength (k : ℕ) (hk : k < 2 ^ 64) : (decimal k).length ≤ 20 :=
    length_decimal_le (by decide) (by omega)
  have hclientLength := hlength client hclient
  have hchannelLength := hlength channel.toNat hchannel
  have hrequestLength := hlength request hrequest
  simp only [idBase, RequestIdCreator.new, version, List.length_append, List.length_cons,
    List.length_nil, length_randProcessId]
  omega

theorem ascii_toDigits {base : ℕ} (hbase : 1 < base) (n : ℕ) :
    ∀ c ∈ Nat.toDigits base n, c.toNat < 128 := by
  have hdigit (k : ℕ) : (Nat.digitChar k).toNat < 128 := by
    have hsmall : ∀ k < 16, (Nat.digitChar k).toNat < 128 := by decide
    rcases Nat.lt_or_ge k 16 with hlt | hge
    · exact hsmall k hlt
    · rw [Nat.digitChar_eq_star.mpr hge]
      decide
  induction n using Nat.strongRecOn with
  | ind n ih =>
      rw [Nat.toDigits_eq_if hbase]
      by_cases hlt : n < base
      · rw [if_pos hlt]
        simpa using hdigit n
      · rw [if_neg hlt]
        intro c hc
        rcases List.mem_append.mp hc with hc | hc
        · exact ih (n / base) (Nat.div_lt_self (by omega) hbase) c hc
        · rw [List.mem_singleton.mp hc]
          exact hdigit (n % base)

theorem ascii_idBase : ∀ c ∈ idBase random client channel request, c.toNat < 128 := by
  have hdecimal (k : ℕ) : ∀ c ∈ decimal k, c.toNat < 128 := ascii_toDigits (by decide) k
  have hprocess : ∀ c ∈ randProcessId random, c.toNat < 128 := by
    intro c hc
    rcases List.mem_append.mp hc with hc | hc
    · rw [List.eq_of_mem_replicate hc]
      decide
    · exact ascii_toDigits (by decide) _ c hc
  intro c hc
  simp only [idBase, RequestIdCreator.new, version, List.mem_append, List.mem_cons,
    List.not_mem_nil, or_false] at hc
  rcases hc with ((rfl | rfl | hc | rfl | hc | rfl) | hc | rfl | hc | rfl)
  all_goals first
    | exact hprocess c hc
    | exact hdecimal _ c hc
    | decide

/-- The interceptor writes the larger of the attempt that the value has and its own. -/
theorem intercept_idBase (hclient : client < 2 ^ 64) (hrequest : request < 2 ^ 64)
    {suffix : List Char} (hsuffix : Decimal.Digits suffix) (attempt : ℕ) :
    intercept (idBase random client channel request ++ suffix) attempt =
      idBase random client channel request ++ decimal (max (existingAttempt suffix) attempt) := by
  have hascii : ¬(idBase random client channel request ++ suffix).any fun c => 128 ≤ c.toNat := by
    simp only [List.any_eq_true, decide_eq_true_eq, not_exists, not_and, Nat.not_le]
    intro c hc
    rcases List.mem_append.mp hc with hc | hc
    · exact ascii_idBase c hc
    · have hdigit := hsuffix c hc
      simp only [Char.isDigit, Bool.and_eq_true, decide_eq_true_eq] at hdigit
      exact Nat.lt_of_le_of_lt hdigit.2 (by decide)
  have hdot : '.' ∉ suffix := fun hmem => absurd (hsuffix '.' hmem) (by decide)
  have hlength : (idBase random client channel request).length ≤ 118 :=
    length_idBase_le hclient hrequest
  obtain ⟨front, hfront⟩ := idBase_eq_concat random client channel request
  have hsplit : splitLastDot (idBase random client channel request ++ suffix) =
      some (idBase random client channel request, suffix) := by
    rw [hfront, List.append_assoc]
    exact splitLastDot_append front hdot
  rw [intercept, if_neg hascii, hsplit]
  exact if_neg (by omega)

/-- An id tells client, channel, request and attempt. -/
theorem idBase_append_inj {attempt attempt' : ℕ}
    (h : idBase random client channel request ++ decimal attempt =
      idBase random client' channel' request' ++ decimal attempt') :
    client = client' ∧ channel = channel' ∧ request = request' ∧ attempt = attempt' := by
  have hdot (k : ℕ) : '.' ∉ decimal k := not_mem_decimal (by decide) k
  have hinj {k k' : ℕ} (heq : decimal k = decimal k') : k = k' := by
    have hvalue := congrArg Decimal.value heq
    rwa [decimal, decimal, Decimal.value_toDigits, Decimal.value_toDigits] at hvalue
  have hhead {k k' : ℕ} {back back' : List Char}
      (heq : decimal k ++ '.' :: back = decimal k' ++ '.' :: back') : k = k' ∧ back = back' := by
    have hsplit := congrArg (splitOnce '.') heq
    rw [splitOnce_append (hdot k), splitOnce_append (hdot k')] at hsplit
    obtain ⟨hk, hback⟩ := Prod.mk.inj (Option.some.inj hsplit)
    exact ⟨hinj hk, hback⟩
  simp only [idBase, RequestIdCreator.new, List.append_assoc, List.cons_append, List.nil_append,
    List.append_cancel_left_eq, List.cons.injEq, true_and] at h
  obtain ⟨hclient, h⟩ := hhead h
  obtain ⟨hchannel, h⟩ := hhead h
  obtain ⟨hrequest, h⟩ := hhead h
  exact ⟨hclient, UInt64.toNat_inj.mp hchannel, hrequest, hinj h⟩

/-! ## The ledger -/

structure Id where
  client : ℕ
  channel : UInt64
  request : ℕ
  attempt : ℕ
deriving DecidableEq

def Id.text (random : UInt64) (id : Id) : List Char :=
  idBase random id.client id.channel id.request ++ decimal id.attempt

theorem Id.text_injective (random : UInt64) : Function.Injective (Id.text random) := by
  intro id id' h
  obtain ⟨hclient, hchannel, hrequest, hattempt⟩ := idBase_append_inj h
  cases id
  cases id'
  simp_all

structure Ticket where
  client : ℕ
  kind : CallKind
  /-- Channel and number of the request. -/
  request : Option (UInt64 × ℕ) := none
  attempts : ℕ := 0

structure Ledger where
  /-- The next request of each client. -/
  clients : List ℕ := []
  tickets : List Ticket := []
  sent : List (ℕ × Id) := []

namespace Ledger

def attempt (ledger : Ledger) (index : ℕ) (ticket : Ticket) (next : ℕ) (channel : UInt64)
    (sends : Bool) : Ledger :=
  let request := ticket.request.getD (channel, next)
  { clients := ledger.clients.set ticket.client (if ticket.request.isNone then next + 1 else next)
    tickets := ledger.tickets.set index
      { ticket with request := some request, attempts := ticket.attempts + 1 }
    sent :=
      if sends then
        ledger.sent ++
          [(index, ⟨ticket.client + 1, request.1, request.2, ticket.attempts + 1⟩)]
      else ledger.sent }

def step (ledger : Ledger) : Event → Ledger
  | .newClient => { ledger with clients := ledger.clients ++ [1] }
  | .call client kind => { ledger with tickets := ledger.tickets ++ [{ client, kind }] }
  | .attempt index channel sends =>
      match ledger.tickets[index]? with
      | none => ledger
      | some ticket =>
          match ledger.clients[ticket.client]? with
          | none => ledger
          | some next => ledger.attempt index ticket next channel sends

def run (events : List Event) : Ledger := events.foldl step {}

theorem run_concat (events : List Event) (event : Event) :
    run (events ++ [event]) = (run events).step event := List.foldl_concat ..

end Ledger

/-! ## The process writes the ledger -/

/-- The attempt in the options: only the restart of a stream writes it there. -/
def suffix (kind : CallKind) (attempts : ℕ) : List Char :=
  if kind = .streaming ∧ 1 < attempts then decimal attempts else []

theorem digits_suffix (kind : CallKind) (attempts : ℕ) :
    Decimal.Digits (suffix kind attempts) := by
  by_cases h : kind = .streaming ∧ 1 < attempts
  · rw [suffix, if_pos h]
    exact digits_decimal attempts
  · rw [suffix, if_neg h]
    exact fun c hc => absurd hc List.not_mem_nil

theorem existingAttempt_suffix (kind : CallKind) {attempts : ℕ} (h : attempts < 2 ^ 32) :
    existingAttempt (suffix kind attempts) =
      if kind = .streaming ∧ 1 < attempts then attempts else 0 := by
  by_cases hkind : kind = .streaming ∧ 1 < attempts
  · rw [suffix, if_pos hkind, if_pos hkind, existingAttempt_decimal h]
  · rw [suffix, if_neg hkind, if_neg hkind]
    rfl

def creator (random : UInt64) (index next : ℕ) : RequestIdCreator :=
  { RequestIdCreator.new random (index + 1) with nextRequestId := next }

def Ticket.call (random : UInt64) (ticket : Ticket) : Call where
  client := ticket.client
  kind := ticket.kind
  header := ticket.request.map fun (channel, request) =>
    idBase random (ticket.client + 1) channel request ++ suffix ticket.kind ticket.attempts
  attempts := ticket.attempts

def Ledger.process (random : UInt64) (ledger : Ledger) : Process where
  random
  nextClientId := ledger.clients.length + 1
  clients := ledger.clients.mapIdx (creator random)
  calls := ledger.tickets.map (Ticket.call random)
  sent := ledger.sent.map fun (index, id) => ⟨index, id.text random⟩

theorem restarted_some {call : Call} (hclient : client < 2 ^ 64) (hrequest : request < 2 ^ 64)
    (hattempts : call.attempts + 1 < 2 ^ 32)
    (hheader : call.header =
      some (idBase random client channel request ++ suffix call.kind call.attempts)) :
    call.restarted =
      some (idBase random client channel request ++ suffix call.kind (call.attempts + 1)) := by
  cases hkind : call.kind with
  | unary =>
      rw [Call.restarted, hkind, hheader, hkind]
      simp [suffix]
  | streaming =>
      have hexisting := existingAttempt_suffix call.kind (Nat.lt_of_succ_lt hattempts)
      rw [Call.restarted, hkind]
      by_cases hzero : call.attempts = 0
      · simp [hheader, hkind, hzero, suffix]
      · have hpos : 0 < call.attempts := Nat.pos_of_ne_zero hzero
        have hmod : (call.attempts + 1) % 2 ^ 32 = call.attempts + 1 := Nat.mod_eq_of_lt hattempts
        have hmax : max (existingAttempt (suffix call.kind call.attempts)) (call.attempts + 1) =
            call.attempts + 1 := by
          apply Nat.max_eq_right
          rw [hexisting]
          split <;> omega
        simp only [hpos, if_true, hmod, updateRequestIdAttempt, hheader, Option.map_some]
        rw [if_neg (by omega), intercept_idBase hclient hrequest (digits_suffix _ _), hmax, suffix,
          if_pos ⟨rfl, by omega⟩]

theorem intercept_attempt (random channel : UInt64) {call : Call} (hclient : client < 2 ^ 64)
    (hrequest : request < 2 ^ 64) (hattempts : call.attempts + 1 < 2 ^ 32) :
    intercept (idBase random client channel request ++ suffix call.kind (call.attempts + 1))
        call.attemptNumber =
      idBase random client channel request ++ decimal (call.attempts + 1) := by
  rw [intercept_idBase hclient hrequest (digits_suffix _ _),
    existingAttempt_suffix call.kind hattempts, Call.attemptNumber]
  cases call.kind with
  | unary =>
      have hmod : call.attempts % 2 ^ 32 = call.attempts :=
        Nat.mod_eq_of_lt (Nat.lt_of_succ_lt hattempts)
      simp only [hmod]
      simp
  | streaming =>
      by_cases hzero : call.attempts = 0
      · simp [hzero]
      · have hpos : 1 < call.attempts + 1 := by omega
        simp [hpos]

/-- The options give an attempt its base, and the interceptor its number. -/
theorem attachRequestId_call (random : UInt64) {ticket : Ticket} {next : ℕ}
    (hclient : ticket.client + 1 < 2 ^ 64) (hnext : next + 1 < 2 ^ 64)
    (hattempts : ticket.attempts + 1 < 2 ^ 32)
    (hfresh : ticket.request = none → ticket.attempts = 0)
    (hused : ∀ taken ∈ ticket.request, taken.2 < 2 ^ 64) (channel : UInt64) :
    (creator random ticket.client next).attachRequestId (ticket.call random).restarted channel =
      (idBase random (ticket.client + 1) (ticket.request.getD (channel, next)).1
          (ticket.request.getD (channel, next)).2 ++ suffix ticket.kind (ticket.attempts + 1),
        creator random ticket.client (if ticket.request.isNone then next + 1 else next)) := by
  cases hrequest : ticket.request with
  | none =>
      have hzero := hfresh hrequest
      have hrestarted : (ticket.call random).restarted = none := by
        rw [Call.restarted]
        cases hkind : ticket.kind <;> simp [Ticket.call, hrequest, hkind, hzero]
      have hsuffix : suffix ticket.kind (ticket.attempts + 1) = [] := by simp [suffix, hzero]
      rw [hrestarted, hsuffix, List.append_nil]
      simp only [RequestIdCreator.attachRequestId, RequestIdCreator.nextIdPrefix, creator, idBase,
        Nat.mod_eq_of_lt hnext]
      rfl
  | some taken =>
      have hheader : (ticket.call random).header =
          some (idBase random (ticket.client + 1) taken.1 taken.2 ++
            suffix (ticket.call random).kind (ticket.call random).attempts) := by
        simp [Ticket.call, hrequest]
      rw [restarted_some hclient (hused taken hrequest) hattempts hheader]
      rfl

/-! ## Invariants of the ledger -/

/-- The attempts of a call so far. -/
def attemptsOf (index : ℕ) (events : List Event) : ℕ :=
  events.countP fun event =>
    match event with
    | .attempt index' _ _ => index' = index
    | _ => false

/-- Requests of a client get numbers below its next one, one number for each. -/
structure Ledger.Counted (ledger : Ledger) (events : List Event) : Prop where
  clients_le : ledger.clients.length ≤ events.length
  next_le : ∀ next ∈ ledger.clients, next ≤ events.length + 1
  attempts_le : ∀ index ticket, ledger.tickets[index]? = some ticket →
    ticket.attempts ≤ attemptsOf index events
  fresh : ∀ ticket ∈ ledger.tickets, ticket.request = none → ticket.attempts = 0
  used : ∀ ticket ∈ ledger.tickets, ∀ taken ∈ ticket.request,
    ∃ next, ledger.clients[ticket.client]? = some next ∧ taken.2 < next
  distinct : ∀ (index index' : ℕ) (ticket ticket' : Ticket), ledger.tickets[index]? = some ticket →
    ledger.tickets[index']? = some ticket' → ticket.client = ticket'.client →
    ∀ taken ∈ ticket.request, ∀ taken' ∈ ticket'.request, taken.2 = taken'.2 → index = index'

theorem Ledger.counted_nil : Ledger.Counted {} [] where
  clients_le := Nat.le_refl 0
  next_le next h := absurd h List.not_mem_nil
  attempts_le index ticket h := absurd h (by simp)
  fresh ticket h := absurd h List.not_mem_nil
  used ticket h := absurd h List.not_mem_nil
  distinct index index' ticket ticket' h := absurd h (by simp)

variable {ledger : Ledger} {events : List Event}

theorem attemptsOf_concat_le (index : ℕ) (events : List Event) (event : Event) :
    attemptsOf index events ≤ attemptsOf index (events ++ [event]) := by
  rw [attemptsOf, attemptsOf, List.countP_append]
  exact Nat.le_add_right _ _

/-- A step that leaves the tickets and the clients as they are keeps the counts. -/
theorem Ledger.Counted.mono (h : ledger.Counted events) (event : Event) :
    ledger.Counted (events ++ [event]) where
  clients_le := by
    rw [List.length_append]
    exact h.clients_le.trans (Nat.le_add_right _ _)
  next_le next hnext := by
    rw [List.length_append]
    exact (h.next_le next hnext).trans (by omega)
  attempts_le index ticket hticket :=
    (h.attempts_le index ticket hticket).trans (attemptsOf_concat_le index events event)
  fresh := h.fresh
  used := h.used
  distinct := h.distinct

theorem Ledger.Counted.newClient (h : ledger.Counted events) :
    (ledger.step .newClient).Counted (events ++ [.newClient]) where
  clients_le := by
    have hle := h.clients_le
    simp only [Ledger.step, List.length_append, List.length_singleton]
    omega
  next_le next hnext := by
    rcases List.mem_append.mp hnext with hnext | hnext
    · exact (h.mono .newClient).next_le next hnext
    · rw [List.mem_singleton.mp hnext]
      exact Nat.le_add_left 1 _
  attempts_le := (h.mono .newClient).attempts_le
  fresh := h.fresh
  used ticket hticket taken htaken := by
    obtain ⟨next, hnext, hlt⟩ := h.used ticket hticket taken htaken
    refine ⟨next, ?_, hlt⟩
    exact (List.getElem?_append_left (List.getElem?_eq_some_iff.mp hnext).1).trans hnext
  distinct := h.distinct

theorem Ledger.Counted.call (h : ledger.Counted events) (client : ℕ) (kind : CallKind) :
    (ledger.step (.call client kind)).Counted (events ++ [.call client kind]) where
  clients_le := (h.mono _).clients_le
  next_le := (h.mono _).next_le
  attempts_le index ticket hticket := by
    rcases getElem?_concat_cases hticket with hticket | ⟨-, rfl⟩
    · exact (h.mono _).attempts_le index ticket hticket
    · exact Nat.zero_le _
  fresh ticket hticket hnone := by
    rcases List.mem_append.mp hticket with hticket | hticket
    · exact h.fresh ticket hticket hnone
    · rw [List.mem_singleton.mp hticket]
  used ticket hticket taken htaken := by
    rcases List.mem_append.mp hticket with hticket | hticket
    · exact h.used ticket hticket taken htaken
    · rw [List.mem_singleton.mp hticket] at htaken
      cases htaken
  distinct index index' ticket ticket' hticket hticket' hclient taken htaken taken' htaken' := by
    rcases getElem?_concat_cases hticket with hticket | ⟨-, rfl⟩
    · rcases getElem?_concat_cases hticket' with hticket' | ⟨-, rfl⟩
      · exact h.distinct index index' ticket ticket' hticket hticket' hclient taken htaken taken'
          htaken'
      · cases htaken'
    · cases htaken

/-- No other call of the client has the number that an attempt sends. -/
theorem Ledger.Counted.ne_taken (h : ledger.Counted events) {index index' next : ℕ}
    {ticket ticket' : Ticket} (hticket : ledger.tickets[index]? = some ticket)
    (hnext : ledger.clients[ticket.client]? = some next)
    (hticket' : ledger.tickets[index']? = some ticket') (hne : index ≠ index')
    (hclient : ticket.client = ticket'.client) {taken' : UInt64 × ℕ}
    (htaken' : taken' ∈ ticket'.request) (channel : UInt64) :
    (ticket.request.getD (channel, next)).2 ≠ taken'.2 := by
  intro heq
  cases hrequest : ticket.request with
  | none =>
      obtain ⟨next', hnext', hlt⟩ := h.used ticket' (List.mem_of_getElem? hticket') taken' htaken'
      rw [← hclient, hnext] at hnext'
      obtain rfl := Option.some.inj hnext'
      rw [hrequest, Option.getD_none] at heq
      exact absurd hlt (by simp [← heq])
  | some taken =>
      rw [hrequest, Option.getD_some] at heq
      exact hne (h.distinct index index' ticket ticket' hticket hticket' hclient taken hrequest
        taken' htaken' heq)

theorem Ledger.Counted.attempt (h : ledger.Counted events) {index next : ℕ} {ticket : Ticket}
    (hticket : ledger.tickets[index]? = some ticket)
    (hnext : ledger.clients[ticket.client]? = some next) (channel : UInt64) (sends : Bool) :
    (ledger.attempt index ticket next channel sends).Counted
      (events ++ [.attempt index channel sends]) := by
  have hmono := h.mono (.attempt index channel sends)
  have hmem := List.mem_of_getElem? hticket
  have hgrow (client next' : ℕ) (hnext' : ledger.clients[client]? = some next') :
      ∃ next'', (ledger.attempt index ticket next channel sends).clients[client]? = some next'' ∧
        next' ≤ next'' := by
    by_cases hclient : ticket.client = client
    · subst hclient
      obtain rfl := Option.some.inj (hnext.symm.trans hnext')
      refine ⟨_, List.getElem?_set_self (List.getElem?_eq_some_iff.mp hnext).1, ?_⟩
      split <;> omega
    · exact ⟨next', (List.getElem?_set_ne hclient).trans hnext', Nat.le_refl _⟩
  refine ⟨?_, ?_, ?_, ?_, ?_, ?_⟩
  · simpa [Ledger.attempt] using hmono.clients_le
  · intro next' hnext'
    rcases List.mem_or_eq_of_mem_set hnext' with hnext' | rfl
    · exact hmono.next_le next' hnext'
    · have hle := h.next_le next (List.mem_of_getElem? hnext)
      rw [List.length_append, List.length_singleton]
      split <;> omega
  · intro index' ticket' hticket'
    rcases getElem?_set_cases hticket' with ⟨rfl, rfl⟩ | ⟨-, hold⟩
    · have hle := h.attempts_le index' ticket hticket
      have hcount : attemptsOf index' (events ++ [.attempt index' channel sends]) =
          attemptsOf index' events + 1 := by
        simp [attemptsOf]
      rw [hcount]
      exact Nat.succ_le_succ hle
    · exact hmono.attempts_le index' ticket' hold
  · intro ticket' hticket' hnone
    rcases List.mem_or_eq_of_mem_set hticket' with hold | rfl
    · exact h.fresh ticket' hold hnone
    · cases hnone
  · intro ticket' hticket' taken htaken
    rcases List.mem_or_eq_of_mem_set hticket' with hold | rfl
    · obtain ⟨next', hnext', hlt⟩ := h.used ticket' hold taken htaken
      obtain ⟨next'', hnext'', hle⟩ := hgrow ticket'.client next' hnext'
      exact ⟨next'', hnext'', hlt.trans_le hle⟩
    · obtain rfl := Option.some.inj htaken
      cases hrequest : ticket.request with
      | none =>
          refine ⟨next + 1, ?_, Nat.lt_succ_self next⟩
          simp [Ledger.attempt, hrequest, (List.getElem?_eq_some_iff.mp hnext).1]
      | some taken' =>
          obtain ⟨next', hnext', hlt⟩ := h.used ticket hmem taken' hrequest
          obtain ⟨next'', hnext'', hle⟩ := hgrow ticket.client next' hnext'
          exact ⟨next'', hnext'', hlt.trans_le hle⟩
  · intro index₁ index₂ ticket₁ ticket₂ h₁ h₂ hclient taken₁ htaken₁ taken₂ htaken₂ heq
    rcases getElem?_set_cases h₁ with ⟨rfl, rfl⟩ | ⟨hne₁, hold₁⟩
    · rcases getElem?_set_cases h₂ with ⟨rfl, -⟩ | ⟨hne₂, hold₂⟩
      · rfl
      · obtain rfl := Option.some.inj htaken₁
        exact absurd heq (h.ne_taken hticket hnext hold₂ hne₂.symm hclient htaken₂ channel)
    · rcases getElem?_set_cases h₂ with ⟨rfl, rfl⟩ | ⟨-, hold₂⟩
      · obtain rfl := Option.some.inj htaken₂
        exact absurd heq.symm
          (h.ne_taken hticket hnext hold₁ hne₁.symm hclient.symm htaken₁ channel)
      · exact h.distinct index₁ index₂ ticket₁ ticket₂ hold₁ hold₂ hclient taken₁ htaken₁ taken₂
          htaken₂ heq

theorem Ledger.counted_run (events : List Event) : (Ledger.run events).Counted events := by
  induction events using List.reverseRecOn with
  | nil => exact Ledger.counted_nil
  | append_singleton events event ih =>
      rw [Ledger.run_concat]
      cases event with
      | newClient => exact ih.newClient
      | call client kind => exact ih.call client kind
      | attempt index channel sends =>
          simp only [Ledger.step]
          split
          · exact ih.mono _
          · rename_i ticket hticket
            split
            · exact ih.mono _
            · rename_i next hnext
              exact ih.attempt hticket hnext channel sends

theorem process_attempt (random : UInt64) (h : ledger.Counted events) {index next : ℕ}
    {ticket : Ticket} (hticket : ledger.tickets[index]? = some ticket)
    (hnext : ledger.clients[ticket.client]? = some next) {channel : UInt64} {sends : Bool}
    (hattempts : attemptsOf index (events ++ [.attempt index channel sends]) < 2 ^ 32)
    (hlength : events.length + 2 < 2 ^ 64) :
    (ledger.process random).attempt index (ticket.call random) (creator random ticket.client next)
        channel sends =
      (ledger.attempt index ticket next channel sends).process random := by
  have hmem := List.mem_of_getElem? hticket
  have hticketAttempts : ticket.attempts + 1 < 2 ^ 32 := by
    have hcount : attemptsOf index (events ++ [.attempt index channel sends]) =
        attemptsOf index events + 1 := by
      simp [attemptsOf]
    have hle := h.attempts_le index ticket hticket
    omega
  have hclient : ticket.client + 1 < 2 ^ 64 := by
    have hlt := (List.getElem?_eq_some_iff.mp hnext).1
    have hle := h.clients_le
    omega
  have hnextLe := h.next_le next (List.mem_of_getElem? hnext)
  have hused : ∀ taken ∈ ticket.request, taken.2 < 2 ^ 64 := by
    intro taken htaken
    obtain ⟨next', hnext', hlt⟩ := h.used ticket hmem taken htaken
    have hle := h.next_le next' (List.mem_of_getElem? hnext')
    omega
  have hrequest : (ticket.request.getD (channel, next)).2 < 2 ^ 64 := by
    cases heq : ticket.request with
    | none => exact lt_of_le_of_lt hnextLe (by omega)
    | some taken => exact hused taken heq
  have hnextLt : next + 1 < 2 ^ 64 := by omega
  have hcallAttempts : (ticket.call random).attempts + 1 < 2 ^ 32 := hticketAttempts
  have hattached := attachRequestId_call random hclient hnextLt hticketAttempts
    (h.fresh ticket hmem) hused channel
  have hsent := intercept_attempt random (ticket.request.getD (channel, next)).1 hclient hrequest
    hcallAttempts
  rw [Process.attempt, hattached]
  simp only [Ledger.process, Ledger.attempt, List.mapIdx_set, List.map_set, Process.mk.injEq,
    List.length_set, true_and]
  refine ⟨rfl, rfl, ?_⟩
  cases sends with
  | false => rfl
  | true =>
      simp only [if_true, List.map_append, List.map_singleton]
      congr 2
      exact congrArg (Sent.mk index) hsent

theorem process_step (random : UInt64) (h : ledger.Counted events) {event : Event}
    (hattempts : ∀ index, attemptsOf index (events ++ [event]) < 2 ^ 32)
    (hlength : events.length + 2 < 2 ^ 64) :
    (ledger.process random).step event = (ledger.step event).process random := by
  have hle := h.clients_le
  cases event with
  | newClient =>
      simp only [Process.step, Process.newClient, Ledger.step, Ledger.process, List.mapIdx_concat,
        List.length_append, List.length_singleton, Process.mk.injEq, true_and, and_true]
      refine ⟨Nat.mod_eq_of_lt (by omega), ?_⟩
      rfl
  | call client kind =>
      simp [Process.step, Ledger.step, Ledger.process, Ticket.call]
  | attempt index channel sends =>
      simp only [Process.step, Ledger.step]
      cases hticket : ledger.tickets[index]? with
      | none => simp [Ledger.process, hticket]
      | some ticket =>
          cases hnext : ledger.clients[ticket.client]? with
          | none => simp [Ledger.process, Ticket.call, hticket, hnext]
          | some next =>
              have hstep := process_attempt random h hticket hnext (hattempts index) hlength
              simpa [Ledger.process, Ticket.call, hticket, hnext] using hstep

/-- The ids are the numbers of the ledger. -/
theorem run_eq_process (random : UInt64) {events : List Event}
    (hattempts : ∀ index, attemptsOf index events < 2 ^ 32) (hlength : events.length + 1 < 2 ^ 64) :
    Process.run { random } events = (Ledger.run events).process random := by
  induction events using List.reverseRecOn with
  | nil => rfl
  | append_singleton events event ih =>
      rw [List.length_append, List.length_singleton] at hlength
      have hrun := ih (fun index => (attemptsOf_concat_le index events event).trans_lt
        (hattempts index)) (by omega)
      rw [Process.run, List.foldl_concat, ← Process.run, hrun, Ledger.run_concat]
      exact process_step random (Ledger.counted_run events) hattempts (by omega)

/-! ## Ids -/

/-- What was sent stays with its ticket. -/
structure Ledger.Recorded (ledger : Ledger) : Prop where
  ticket : ∀ entry ∈ ledger.sent, ∃ ticket, ledger.tickets[entry.1]? = some ticket ∧
    entry.2.client = ticket.client + 1 ∧
    ticket.request = some (entry.2.channel, entry.2.request) ∧
    1 ≤ entry.2.attempt ∧ entry.2.attempt ≤ ticket.attempts
  increasing : ledger.sent.Pairwise fun entry entry' =>
    entry.1 = entry'.1 → entry.2.attempt < entry'.2.attempt

theorem Ledger.Recorded.attempt (h : ledger.Recorded) {index : ℕ} {ticket : Ticket}
    (hticket : ledger.tickets[index]? = some ticket) (next : ℕ) (channel : UInt64) (sends : Bool) :
    (ledger.attempt index ticket next channel sends).Recorded := by
  have hself : (ledger.attempt index ticket next channel sends).tickets[index]? =
      some { ticket with
        request := some (ticket.request.getD (channel, next)), attempts := ticket.attempts + 1 } :=
    List.getElem?_set_self (List.getElem?_eq_some_iff.mp hticket).1
  have hold : ∀ entry ∈ ledger.sent, ∃ ticket',
      (ledger.attempt index ticket next channel sends).tickets[entry.1]? = some ticket' ∧
      entry.2.client = ticket'.client + 1 ∧
      ticket'.request = some (entry.2.channel, entry.2.request) ∧
      1 ≤ entry.2.attempt ∧ entry.2.attempt ≤ ticket'.attempts := by
    intro entry hentry
    obtain ⟨ticket', hticket', hclient, hrequest, hpos, hle⟩ := h.ticket entry hentry
    by_cases hindex : index = entry.1
    · subst hindex
      obtain rfl := Option.some.inj (hticket.symm.trans hticket')
      refine ⟨_, hself, hclient, ?_, hpos, Nat.le_succ_of_le hle⟩
      rw [hrequest, Option.getD_some]
    · exact ⟨ticket', (List.getElem?_set_ne hindex).trans hticket', hclient, hrequest, hpos, hle⟩
  cases sends with
  | false => exact ⟨hold, h.increasing⟩
  | true =>
      refine ⟨?_, List.pairwise_append.mpr ⟨h.increasing, List.pairwise_singleton _ _, ?_⟩⟩
      · intro entry hentry
        rcases List.mem_append.mp hentry with hentry | hentry
        · exact hold entry hentry
        · rw [List.mem_singleton.mp hentry]
          exact ⟨_, hself, rfl, rfl, Nat.le_add_left 1 _, Nat.le_refl _⟩
      · intro entry hentry entry' hentry' hindex
        rw [List.mem_singleton.mp hentry'] at hindex ⊢
        obtain ⟨ticket', hticket', -, -, -, hle⟩ := h.ticket entry hentry
        rw [hindex, hticket] at hticket'
        obtain rfl := Option.some.inj hticket'
        exact Nat.lt_succ_of_le hle

theorem Ledger.Recorded.step (h : ledger.Recorded) (event : Event) :
    (ledger.step event).Recorded := by
  cases event with
  | newClient => exact ⟨h.ticket, h.increasing⟩
  | call client kind =>
      refine ⟨fun entry hentry => ?_, h.increasing⟩
      obtain ⟨ticket, hticket, hrest⟩ := h.ticket entry hentry
      refine ⟨ticket, ?_, hrest⟩
      exact (List.getElem?_append_left (List.getElem?_eq_some_iff.mp hticket).1).trans hticket
  | attempt index channel sends =>
      simp only [Ledger.step]
      split
      · exact h
      · rename_i ticket hticket
        split
        · exact h
        · exact h.attempt hticket _ channel sends

theorem Ledger.recorded_run (events : List Event) : (Ledger.run events).Recorded :=
  foldl_invariant (fun _ event h => h.step event)
    ⟨fun _ hentry => absurd hentry List.not_mem_nil, List.Pairwise.nil⟩ events

/-- The numbers in the ids that a process has sent. -/
structure Identified (process : Process) (ids : List (ℕ × Id)) : Prop where
  sent : process.sent = ids.map fun (index, id) => ⟨index, id.text process.random⟩
  call : ∀ index id, (index, id) ∈ ids → ∃ call, process.calls[index]? = some call ∧
    id.client = call.client + 1 ∧ 1 ≤ id.attempt ∧ id.attempt ≤ call.attempts
  same_call : ∀ index id id', (index, id) ∈ ids → (index, id') ∈ ids →
    id.channel = id'.channel ∧ id.request = id'.request
  other_call : ∀ index index' id id', (index, id) ∈ ids → (index', id') ∈ ids → index ≠ index' →
    id.client = id'.client → id.request ≠ id'.request
  increasing : ids.Pairwise fun (index, id) (index', id') => index = index' →
    id.attempt < id'.attempt
  nodup : (process.sent.map Sent.value).Nodup

theorem Ledger.identified (hcounted : ledger.Counted events) (h : ledger.Recorded) :
    Identified (ledger.process random) ledger.sent := by
  have hother (index index' : ℕ) (id id' : Id) (hid : (index, id) ∈ ledger.sent)
      (hid' : (index', id') ∈ ledger.sent) (hne : index ≠ index')
      (hclient : id.client = id'.client) : id.request ≠ id'.request := by
    obtain ⟨ticket, hticket, hticketClient, hrequest, -⟩ := h.ticket _ hid
    obtain ⟨ticket', hticket', hticketClient', hrequest', -⟩ := h.ticket _ hid'
    intro heq
    have hclients : ticket.client = ticket'.client := by
      apply Nat.succ.inj
      exact hticketClient.symm.trans (hclient.trans hticketClient')
    exact hne (hcounted.distinct index index' ticket ticket' hticket hticket' hclients _ hrequest _
      hrequest' heq)
  refine ⟨rfl, ?_, ?_, hother, h.increasing, ?_⟩
  · intro index id hid
    obtain ⟨ticket, hticket, hclient, -, hpos, hle⟩ := h.ticket _ hid
    exact ⟨ticket.call random, by simp [Ledger.process, hticket], hclient, hpos, hle⟩
  · intro index id id' hid hid'
    obtain ⟨ticket, hticket, -, hrequest, -⟩ := h.ticket _ hid
    obtain ⟨ticket', hticket', -, hrequest', -⟩ := h.ticket _ hid'
    obtain rfl := Option.some.inj (hticket.symm.trans hticket')
    exact Prod.mk.inj (Option.some.inj (hrequest.symm.trans hrequest'))
  · have hvalues : (ledger.process random).sent.map Sent.value =
        (ledger.sent.map Prod.snd).map (Id.text random) := by
      simp [Ledger.process, Function.comp_def]
    rw [hvalues]
    refine List.Nodup.map (Id.text_injective random) (List.pairwise_map.mpr ?_)
    refine h.increasing.imp_of_mem fun {entry entry'} hentry hentry' hlt heq => ?_
    by_cases hindex : entry.1 = entry'.1
    · exact absurd (hlt hindex) (by simp [heq])
    · exact hother _ _ _ _ hentry hentry' hindex (by rw [heq]) (by rw [heq])

/-- No id is sent twice, and an id tells its client, its channel, its request and its attempt. -/
theorem run_identified (random : UInt64) (events : List Event)
    (hattempts : ∀ index, attemptsOf index events < 2 ^ 32) (hlength : events.length + 1 < 2 ^ 64) :
    ∃ ids, Identified (Process.run { random } events) ids := by
  rw [run_eq_process random hattempts hlength]
  exact ⟨_, Ledger.identified (Ledger.counted_run events) (Ledger.recorded_run events)⟩

/-- Two calls of one client, one of them a stream that starts again. -/
theorem run_identified_restart :
    ∃ ids, Identified (Process.run { random := 7 }
      [.newClient, .call 0 .streaming, .call 0 .unary, .attempt 0 3 true, .attempt 1 4 false,
        .attempt 0 5 true, .attempt 1 6 true]) ids :=
  run_identified 7 _ (fun _ => List.countP_le_length.trans_lt (by decide)) (by decide)

end GoogleCloudRust.RequestId
