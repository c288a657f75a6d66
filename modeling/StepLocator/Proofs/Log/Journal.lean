import StepLocator.Proofs.Log.Delivery

/-!
Where records go. A journal is a router with all that is written through it: the error output, what
others collect, and the files. After a call that has succeeded, each record of its level and above
is written once, at the address that the call has asked for, and once for each handler that others
have added since. So whatever calls succeed or fail in between, a file holds what it held before and
the lines that were meant for it, in order.
-/
namespace StepLocator
namespace Log

open FileSystem

structure Journal where
  router : Router
  outputs : Outputs

inductive Event
  | configure (level : Text) (file : Option Path)
  | addForeign
  | addBack (place : Nat)
  | emit (record : Record)

namespace Journal

def perform (j : Journal) : Event → Journal
  | .configure level file =>
    let done := j.router.configure j.outputs.files level file
    ⟨done.router, { j.outputs with files := done.files }⟩
  | .addForeign => { j with router := j.router.addForeign }
  | .addBack place => { j with router := j.router.addBack place }
  | .emit record => { j with outputs := j.router.emit record j.outputs }

def after (j : Journal) (es : List Event) : Journal := es.foldl perform j

/-- What stands after an event, from what stood before it. -/
def nextOrder (j : Journal) (standing : Option Order) : Event → Option Order
  | .configure level file =>
    let done := j.router.configure j.outputs.files level file
    match done.outcome with
    | .ok handler => Order.ofCall? done.files level file handler
    | .error _ => standing
  | .addForeign => standing.map (·.add j.router.handlers.length)
  | .addBack place =>
    if j.router.handlers[place]?.any (fun h => !h.isOwn) then standing.map (·.add place)
    else standing
  | .emit _ => standing

def orderAfter (j : Journal) (standing : Option Order) : List Event → Option Order
  | [] => standing
  | e :: rest => (j.perform e).orderAfter (j.nextOrder standing e) rest

def recordOf? (standing : Option Order) : Event → Option (Order × Record)
  | .emit record => standing.map (·, record)
  | _ => none

/-- The records of events, each with what stood when it was emitted. -/
def history (j : Journal) (standing : Option Order) : List Event → List (Order × Record)
  | [] => []
  | e :: rest =>
    (recordOf? standing e).toList ++ (j.perform e).history (j.nextOrder standing e) rest

def linesTo (address : Address) (history : List (Order × Record)) : Text :=
  (history.filter fun (o, record) => o.level ≤ record.level ∧ o.address = address).flatMap
    fun (_, record) => record.line

def copiesOf (history : List (Order × Record)) : Text :=
  (history.filter fun (o, record) => o.level ≤ record.level).flatMap
    fun (o, record) => o.copies record

variable {j : Journal} {o : Order}

/-- The router of a journal is as what stands demands: one handler of its own, which writes at the
address asked for, and behind it those of others that were added since. -/
structure Obeys (j : Journal) (o : Order) : Prop where
  level : j.router.level = o.level
  active : j.router.active = o.handler :: o.added
  own : ∃ h, j.router.handlers[o.handler]? = some h ∧ h.sink.Serves j.outputs.files o.address
  foreign : ∀ place ∈ o.added, ∃ h, j.router.handlers[place]? = some h ∧ h.isOwn = false
  nodup : o.added.Nodup

theorem Obeys.ne_handler (h : j.Obeys o) {place : Nat} {other : Handler}
    (hother : j.router.handlers[place]? = some other) (hforeign : other.isOwn = false) :
    place ≠ o.handler := by
  rintro rfl
  obtain ⟨own, hown, hserves⟩ := h.own
  obtain rfl : own = other := Option.some.inj (hown.symm.trans hother)
  cases (hserves.isOwn own.closed).symm.trans hforeign

theorem Obeys.handler_notMem (h : j.Obeys o) : o.handler ∉ o.added := fun hmem => by
  obtain ⟨other, hother, hforeign⟩ := h.foreign _ hmem
  exact h.ne_handler hother hforeign rfl

theorem Obeys.nodup_concat (h : j.Obeys o) {place : Nat} (hnotMem : place ∉ o.added) :
    (o.added ++ [place]).Nodup := by
  refine List.nodup_append.mpr ⟨h.nodup, by simp, ?_⟩
  rintro other hmem _ hnew rfl
  exact hnotMem (List.mem_singleton.mp hnew ▸ hmem)

theorem Obeys.activeHandlers (h : j.Obeys o) : ∃ own others,
    j.router.activeHandlers = own :: others ∧ own.sink.Serves j.outputs.files o.address ∧
      (∀ other ∈ others, other.isOwn = false) ∧ others.length = o.added.length := by
  obtain ⟨own, hown, hserves⟩ := h.own
  refine ⟨own, o.added.filterMap (j.router.handlers[·]?), ?_, hserves, ?_, ?_⟩
  · rw [Router.activeHandlers, h.active, List.filterMap_cons, hown]
  · intro other hmem
    obtain ⟨place, hplace, hother⟩ := List.mem_filterMap.mp hmem
    obtain ⟨foreign, hforeign, hisForeign⟩ := h.foreign place hplace
    rw [hother] at hforeign
    cases hforeign
    exact hisForeign
  · rw [List.length_filterMap_eq_countP, List.countP_eq_length]
    intro place hplace
    obtain ⟨foreign, hforeign, -⟩ := h.foreign place hplace
    rw [hforeign]
    rfl

/-! ### What one event does -/

theorem Obeys.perform_emit_of_lt (h : j.Obeys o) {record : Record} (hlt : record.level < o.level) :
    j.perform (.emit record) = j := by
  rw [perform, Router.emit, if_pos (by rwa [h.level])]

theorem Obeys.perform_emit_of_le (h : j.Obeys o) {record : Record} (hle : o.level ≤ record.level) :
    let j' := j.perform (.emit record)
    j.outputs.Takes j'.outputs o.address record.line (o.copies record) ∧
      j.outputs.files.Grows j'.outputs.files := by
  intro j'
  obtain ⟨own, others, hactive, hserves, hforeign, hlength⟩ := h.activeHandlers
  obtain ⟨htakes, hgrows⟩ := Router.deliver_of_serves hserves record
  have hemit : j'.outputs = (others.foldl (Router.deliver record)
      (Router.deliver record j.outputs own)) := by
    simp only [j', perform, Router.emit]
    rw [if_neg (by rw [h.level]; omega), if_neg (by simp [h.active]), hactive, List.foldl_cons]
  rw [Router.foldl_deliver_foreign record others hforeign, hlength] at hemit
  rw [hemit]
  refine ⟨⟨htakes.errors, ?_, htakes.files⟩, hgrows⟩
  rw [htakes.foreign, List.append_nil]
  rfl

theorem Obeys.grow {j' : Journal} (h : j.Obeys o) (hrouter : j'.router = j.router)
    (hgrows : j.outputs.files.Grows j'.outputs.files) : j'.Obeys o := by
  obtain ⟨own, hown, hserves⟩ := h.own
  refine ⟨?_, ?_, ⟨own, ?_, hserves.grow hgrows⟩, ?_, h.nodup⟩
  · rw [hrouter, h.level]
  · rw [hrouter, h.active]
  · rw [hrouter, hown]
  · rw [hrouter]
    exact h.foreign

/-- After a call that has succeeded, what it asks for stands, whatever stood before. -/
theorem perform_configure_ok {level : Text} {file : Option Path} {handler : Nat}
    (h : (j.router.configure j.outputs.files level file).outcome = .ok handler)
    (standing : Option Order) : ∃ o, j.nextOrder standing (.configure level file) = some o ∧
      (j.perform (.configure level file)).Obeys o := by
  obtain ⟨number, sink, address, hrouter, hcall, rfl, hserves⟩ := Router.configure_of_ok h
  refine ⟨⟨number, address, j.router.handlers.length, []⟩, ?_, ?_⟩
  · simp only [nextOrder, h, hcall]
  · have hlength : (Router.releaseAll j.router.active j.router.handlers).length =
        j.router.handlers.length := by simp [Router.releaseAll]
    refine ⟨?_, ?_, ⟨⟨sink, false⟩, ?_, hserves⟩, fun _ hmem => absurd hmem List.not_mem_nil,
      List.nodup_nil⟩
    · rw [perform, hrouter]
      rfl
    · rw [perform, hrouter]
      rfl
    · rw [perform, hrouter, Router.replaceAll]
      simp [← hlength]

theorem Obeys.addForeign (h : j.Obeys o) :
    (j.perform .addForeign).Obeys (o.add j.router.handlers.length) := by
  have hlt : ∀ {place handler}, j.router.handlers[place]? = some handler →
      place < j.router.handlers.length := fun hplace => (List.getElem?_eq_some_iff.mp hplace).1
  have hnotMem : j.router.handlers.length ∉ o.added := fun hmem => by
    obtain ⟨_, hplace, -⟩ := h.foreign _ hmem
    exact Nat.lt_irrefl _ (hlt hplace)
  obtain ⟨own, hown, hserves⟩ := h.own
  rw [Order.add, if_neg hnotMem]
  refine ⟨h.level, ?_, ⟨own, ?_, hserves⟩, fun place hplace => ?_, ?_⟩
  · simp [perform, Router.addForeign, h.active]
  · simp only [perform, Router.addForeign]
    rw [List.getElem?_append_left (hlt hown), hown]
  · simp only [perform, Router.addForeign]
    rcases List.mem_append.mp hplace with hplace | hplace
    · obtain ⟨other, hother, hisForeign⟩ := h.foreign place hplace
      exact ⟨other, by rw [List.getElem?_append_left (hlt hother), hother], hisForeign⟩
    · rw [List.mem_singleton.mp hplace]
      exact ⟨⟨.foreign, false⟩, List.getElem?_concat_length, rfl⟩
  · exact h.nodup_concat hnotMem

theorem Obeys.addBack (h : j.Obeys o) {place : Nat}
    (hforeign : j.router.handlers[place]?.any (fun h => !h.isOwn) = true) :
    (j.perform (.addBack place)).Obeys (o.add place) := by
  obtain ⟨other, hother, hisForeign⟩ := Option.any_eq_true _ _ |>.mp hforeign
  rw [Bool.not_eq_true'] at hisForeign
  have hne : place ≠ o.handler := h.ne_handler hother hisForeign
  by_cases hmem : place ∈ o.added
  · have hsame : j.perform (.addBack place) = j := by
      rw [perform, Router.addBack, if_neg (by simp [h.active, hmem])]
    rwa [hsame, Order.add, if_pos hmem]
  · rw [perform, Router.addBack, if_pos ⟨hforeign, by simp [h.active, hne, hmem]⟩, Order.add,
      if_neg hmem]
    refine ⟨h.level, by simp [h.active], h.own, fun place' hplace' => ?_, h.nodup_concat hmem⟩
    rcases List.mem_append.mp hplace' with hplace' | hplace'
    · exact h.foreign place' hplace'
    · rw [List.mem_singleton.mp hplace']
      exact ⟨other, hother, hisForeign⟩

/-! ### Runs -/

/-- Outputs have taken in all that a history meant for them, and nothing else. -/
structure Receives (o o' : Outputs) (history : List (Order × Record)) : Prop where
  errors : o'.errors = o.errors ++ linesTo .errors history
  foreign : o'.foreign = o.foreign ++ copiesOf history
  files : ∀ location, o'.files.root.contentAt location =
    o.files.root.contentAt location ++ Utf8.encode (linesTo (.file location) history)

theorem linesTo_append (address : Address) (first second : List (Order × Record)) :
    linesTo address (first ++ second) = linesTo address first ++ linesTo address second := by
  rw [linesTo, List.filter_append, List.flatMap_append, linesTo, linesTo]

theorem copiesOf_append (first second : List (Order × Record)) :
    copiesOf (first ++ second) = copiesOf first ++ copiesOf second := by
  rw [copiesOf, List.filter_append, List.flatMap_append, copiesOf, copiesOf]

theorem receives_nil {outputs outputs' : Outputs} (herrors : outputs'.errors = outputs.errors)
    (hforeign : outputs'.foreign = outputs.foreign)
    (hfiles : outputs.files.Extends outputs'.files) : Receives outputs outputs' [] where
  errors := by simp [herrors, linesTo]
  foreign := by simp [hforeign, copiesOf]
  files location := by
    rw [hfiles.contents location]
    exact (List.append_nil _).symm

theorem Receives.append {first second third : Outputs} {early late : List (Order × Record)}
    (h : Receives first second early) (h' : Receives second third late) :
    Receives first third (early ++ late) where
  errors := by rw [h'.errors, h.errors, linesTo_append, List.append_assoc]
  foreign := by rw [h'.foreign, h.foreign, copiesOf_append, List.append_assoc]
  files location := by
    rw [h'.files, h.files, linesTo_append, Utf8.encode_append, List.append_assoc]

theorem receives_of_takes {outputs outputs' : Outputs} {record : Record}
    (hle : o.level ≤ record.level)
    (h : outputs.Takes outputs' o.address record.line (o.copies record)) :
    Receives outputs outputs' [(o, record)] := by
  have hlines : ∀ address, linesTo address [(o, record)] =
      if o.address = address then record.line else [] := fun address => by
    by_cases haddress : o.address = address <;> simp [linesTo, hle, haddress]
  refine ⟨?_, ?_, fun location => ?_⟩
  · rw [hlines, h.errors]
  · rw [h.foreign]
    simp [copiesOf, hle]
  · rw [hlines, h.files location]
    split <;> rfl

theorem receives_of_lt {record : Record} (outputs : Outputs) (hlt : record.level < o.level) :
    Receives outputs outputs [(o, record)] := by
  have hnone : ∀ address, linesTo address [(o, record)] = [] := fun address => by
    simp [linesTo, Int.not_le.mpr hlt]
  refine ⟨?_, ?_, fun location => ?_⟩
  · rw [hnone, List.append_nil]
  · simp [copiesOf, Int.not_le.mpr hlt]
  · rw [hnone]
    exact (List.append_nil _).symm

/-- What one event does: the router follows what stands, the files grow, and the outputs take in the
record of the event where it was meant to go. -/
theorem Obeys.perform (h : j.Obeys o) (e : Event) : ∃ o', j.nextOrder (some o) e = some o' ∧
    (j.perform e).Obeys o' ∧ j.outputs.files.Grows (j.perform e).outputs.files ∧
    Receives j.outputs (j.perform e).outputs (recordOf? (some o) e).toList := by
  cases e with
  | configure level file =>
    have hextends := Router.extends_configure j.router j.outputs.files level file
    have hreceives : Receives j.outputs (j.perform (.configure level file)).outputs [] :=
      receives_nil rfl rfl hextends
    cases houtcome : (j.router.configure j.outputs.files level file).outcome with
    | ok handler =>
      obtain ⟨o', hnext, hobeys⟩ := perform_configure_ok houtcome (some o)
      exact ⟨o', hnext, hobeys, hextends.toGrows, hreceives⟩
    | error fault =>
      have hrouter : (j.perform (.configure level file)).router = j.router :=
        Router.configure_router_of_error houtcome
      refine ⟨o, ?_, h.grow hrouter hextends.toGrows, hextends.toGrows, hreceives⟩
      simp only [nextOrder, houtcome]
  | addForeign =>
    exact ⟨_, rfl, h.addForeign, Grows.refl _, receives_nil rfl rfl (Extends.refl _)⟩
  | addBack place =>
    have hreceives : Receives j.outputs (j.perform (.addBack place)).outputs [] :=
      receives_nil rfl rfl (Extends.refl _)
    by_cases hforeign : j.router.handlers[place]?.any (fun h => !h.isOwn) = true
    · exact ⟨_, by rw [nextOrder, if_pos hforeign]; rfl, h.addBack hforeign, Grows.refl _,
        hreceives⟩
    · have hrouter : (j.perform (.addBack place)).router = j.router := by
        rw [Journal.perform, Router.addBack, if_neg fun hboth => hforeign hboth.1]
      exact ⟨o, by rw [nextOrder, if_neg hforeign], h.grow hrouter (Grows.refl _), Grows.refl _,
        hreceives⟩
  | emit record =>
    rcases Int.lt_or_le record.level o.level with hlt | hle
    · have hsame := h.perform_emit_of_lt hlt
      rw [hsame]
      exact ⟨o, rfl, h, Grows.refl _, receives_of_lt j.outputs hlt⟩
    · obtain ⟨htakes, hgrows⟩ := h.perform_emit_of_le hle
      exact ⟨o, rfl, h.grow rfl hgrows, hgrows, receives_of_takes hle htakes⟩

/-- What events do, one after the other. -/
theorem Obeys.after (h : j.Obeys o) (es : List Event) : ∃ o', j.orderAfter (some o) es = some o' ∧
    (j.after es).Obeys o' ∧ j.outputs.files.Grows (j.after es).outputs.files ∧
    Receives j.outputs (j.after es).outputs (j.history (some o) es) := by
  induction es generalizing j o with
  | nil => exact ⟨o, rfl, h, Grows.refl _, receives_nil rfl rfl (Extends.refl _)⟩
  | cons e rest ih =>
    obtain ⟨o', hnext, hobeys, hgrows, hreceives⟩ := h.perform e
    obtain ⟨last, horder, hobeys', hgrows', hreceives'⟩ := ih hobeys
    refine ⟨last, ?_, hobeys', hgrows.trans hgrows', ?_⟩
    · rw [orderAfter, hnext, horder]
    · rw [history, hnext]
      exact hreceives.append hreceives'

theorem after_append (j : Journal) (es es' : List Event) :
    j.after (es ++ es') = (j.after es).after es' := List.foldl_append

theorem grows_of_run {level : Text} {file : Option Path} {earlier later es : List Event}
    (h : ∃ handler, (j.router.configure j.outputs.files level file).outcome = .ok handler)
    (hrun : .configure level file :: es = earlier ++ later) :
    (j.after earlier).outputs.files.Grows
      (j.after (.configure level file :: es)).outputs.files := by
  obtain ⟨handler, houtcome⟩ := h
  obtain ⟨o, -, hobeys⟩ := perform_configure_ok houtcome none
  cases earlier with
  | nil =>
    obtain ⟨-, -, -, hgrows, -⟩ := hobeys.after es
    exact (Router.extends_configure _ _ level file).toGrows.trans hgrows
  | cons e rest =>
    rw [List.cons_append, List.cons.injEq] at hrun
    obtain ⟨rfl, rfl⟩ := hrun
    obtain ⟨o', -, hobeys', -⟩ := hobeys.after rest
    obtain ⟨-, -, -, hgrows, -⟩ := hobeys'.after later
    rwa [← after_append] at hgrows

/-- Where the records of a run go that begins with a call that succeeds, whatever calls succeed or
fail in it and whatever handlers others add. A record below the level of the last call that has
succeeded goes nowhere. Any other is written once where that call wants it, and given once to each
handler that others have added since. So the error output and each file hold in the end what they
held before and the lines that were meant for them, in order, and what a path leads to is read with
all of its lines. -/
theorem records_of_run (j : Journal) (level : Text) (file : Option Path) (es : List Event)
    (h : ∃ handler, (j.router.configure j.outputs.files level file).outcome = .ok handler) :
    let run := .configure level file :: es
    let now := j.after run
    let history := j.history none run
    (∃ order, j.orderAfter none run = some order ∧
      now.router.active = order.handler :: order.added ∧ now.router.active.Nodup ∧
      (∀ place ∈ order.added, ∃ h, now.router.handlers[place]? = some h ∧ h.isOwn = false) ∧
      ∀ record : Record,
        (record.level < order.level → now.perform (.emit record) = now) ∧
        (order.level ≤ record.level →
          now.outputs.Takes (now.perform (.emit record)).outputs order.address record.line
            (order.copies record))) ∧
    now.outputs.errors = j.outputs.errors ++ linesTo .errors history ∧
    now.outputs.foreign = j.outputs.foreign ++ copiesOf history ∧
    (∀ location, now.outputs.files.root.contentAt location =
      j.outputs.files.root.contentAt location ++
        Utf8.encode (linesTo (.file location) history)) ∧
    ∀ earlier later text location, run = earlier ++ later →
      (j.after earlier).outputs.files.fileLocation? text = some location →
      now.outputs.files.fileLocation? text = some location ∧
      now.outputs.files.read text = .ok (j.outputs.files.root.contentAt location ++
        Utf8.encode (linesTo (.file location) history)) := by
  intro run now history
  obtain ⟨handler, houtcome⟩ := id h
  obtain ⟨first, hnext, hfirst⟩ := perform_configure_ok houtcome none
  obtain ⟨order, horder, hobeys, -, hreceives⟩ := hfirst.after es
  have hrouted : Receives j.outputs now.outputs history := by
    have hbegun : Receives j.outputs (j.perform (.configure level file)).outputs [] :=
      receives_nil rfl rfl (Router.extends_configure _ _ level file)
    have hhistory :
        history = [] ++ (j.perform (.configure level file)).history (some first) es := by
      simp only [history, run, Journal.history, hnext, recordOf?, Option.toList_none]
    rw [hhistory]
    exact hbegun.append hreceives
  refine ⟨⟨order, ?_, hobeys.active, ?_, hobeys.foreign, fun record =>
      ⟨hobeys.perform_emit_of_lt, fun hle => (hobeys.perform_emit_of_le hle).1⟩⟩,
    hrouted.errors, hrouted.foreign, hrouted.files, ?_⟩
  · simp only [run, orderAfter, hnext, horder]
  · exact hobeys.active ▸ List.nodup_cons.mpr ⟨hobeys.handler_notMem, hobeys.nodup⟩
  · intro earlier later text location hrun hlocation
    have hnow := (grows_of_run h hrun).fileLocation? hlocation
    exact ⟨hnow, by rw [read_of_fileLocation? hnow, hrouted.files location]⟩

/-- A file holds one line. It is configured, a call with an unknown level fails, the error output is
configured, and then the file again by another path: it holds its line and those of its records, the
error output holds what came in between, and another's handler has the record that came while it was
there. -/
theorem records_of_run_back_and_forth :
    let fs : FileSystem := .ofListing (.file "a.log" (Utf8.encode "old\n") 0 .empty)
    let j : Journal := ⟨.bare warning, ⟨[], [], fs⟩⟩
    let say (level : Int) (message : Text) : Event := .emit (record level "session" message)
    let es : List Event := [say info "one", .configure "loud" none, .addForeign,
      say warning "two", .configure " Error " none, say info "three", say error "four",
      .configure "debug" (some (Path.ofText "/b/../a.log")), say debug "five"]
    let now := j.after (.configure "info" (some (Path.ofText "/a.log")) :: es)
    now.outputs.files.read "/a.log" = .ok (Utf8.encode ("old\n".toList ++
      "[INFO] ci_operator_lsp.session: one\n".toList ++
      "[WARNING] ci_operator_lsp.session: two\n".toList ++
      "[DEBUG] ci_operator_lsp.session: five\n".toList)) ∧
    now.outputs.errors = "[ERROR] ci_operator_lsp.session: four\n".toList ∧
    now.outputs.foreign = "two\n".toList := by
  intro fs j say es now
  let run : List Event := .configure "info" (some (Path.ofText "/a.log")) :: es
  obtain ⟨-, herrors, hforeign, -, hread⟩ :=
    records_of_run j "info" (some (Path.ofText "/a.log")) es ⟨0, rfl⟩
  have hlocation : j.outputs.files.fileLocation? "/a.log" = some [("a.log" : Text)] := by
    decide +kernel
  have hfile : linesTo (.file ["a.log"]) (j.history none run) =
      "[INFO] ci_operator_lsp.session: one\n".toList ++
        "[WARNING] ci_operator_lsp.session: two\n".toList ++
        "[DEBUG] ci_operator_lsp.session: five\n".toList := by decide +kernel
  have hline : linesTo .errors (j.history none run) =
      "[ERROR] ci_operator_lsp.session: four\n".toList := by decide +kernel
  have hcopy : copiesOf (j.history none run) = "two\n".toList := by decide +kernel
  refine ⟨?_, ?_, ?_⟩
  · obtain ⟨-, hnow⟩ := hread [] run "/a.log" _ rfl hlocation
    rw [hnow, hfile, List.append_assoc, List.append_assoc, Utf8.encode_append, List.append_assoc]
    rfl
  · rw [herrors, hline]
    rfl
  · rw [hforeign, hcopy]
    rfl

end Journal
end Log
end StepLocator
