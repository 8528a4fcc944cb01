import SymbolLocator.Session
import SymbolLocator.Proofs.Extension
import SymbolLocator.Proofs.LookupEvents
import SymbolLocator.Proofs.TeOption

/-!
# Runs of a Session

What commands make of a session.

A session is the one thing here that has a past. Its layout was read from a
buffer that may have been edited since, and nothing about its type says that
the layout still fits. What becomes of it is a matter of one command at a
time. `Session.Changes` lists the ways in which a command changes a session,
and a command that changes it in none of these leaves it as it was. In
particular, a command that is answered with an error has changed nothing.

The layout is good for as long as loading the buffer would find it again. This
is `Session.Current`, and it is what the commands of a run hand on. An edit
may break it, unless it is behind the headers and takes nothing away. A reload
makes it good again, if the buffer is accepted, and otherwise leaves it as it
was. So a run whose edits are of that kind never comes to a layout that is
wrong about its buffer, and no lookup on the way finds a contract violated.

## Main definitions

* `Session.Changes`: The ways in which a command changes a session.
* `Command.IsQuery`: A command only asks.
* `Session.Current`: The layout is that of the buffer.
* `Session.KeptBy`, `Session.KeptByAll`: Commands that leave the headers alone.

## Theorems

* `Session.after_eq_or_changes`: A command changes a session in one of the ways
  listed, or not at all.
* `Session.after_eq_of_error`: An answer that is an error comes from the same
  session.
* `Session.getElem?_run`, `Session.run_append`: Each step of a run is taken from
  where the commands in front of it lead.
* `Session.run_queries`: A run of queries stays where it is.
* `Session.layout_afterAll`: A layout is the first one or that of a reload.
* `Session.current_of_start`, `Session.current_after_reload`: Where a layout is
  good.
* `Session.Current.after`, `Session.Current.run`: A layout stays good.
* `Session.current_behind_reload`: So does that of a reload.
* `Session.Current.locate_eq_symbolPath`: A good layout gives the path that
  loading the buffer anew gives.
* `Session.Current.level_ne_error`: No lookup in a run reports an error of the
  program.
-/

namespace SymbolLocator

/-! ### Edits -/

namespace Buffer

theorem agreeOn_patch {buffer : Buffer} {offset stop : Nat} (hstop : stop ≤ offset)
    (hoffset : offset ≤ buffer.size) (content : Buffer) :
    buffer.AgreeOn (buffer.patch offset content) 0 stop := by
  intro i hi _
  have hfront : i < (buffer.bytes.take offset).length := by
    rw [List.length_take, length_bytes]
    omega
  rw [bytes_patch, List.getElem?_append_left hfront, List.getElem?_take, if_pos (by omega)]

theorem agreeOn_resize {buffer : Buffer} {length : Nat} (hle : buffer.size ≤ length) :
    buffer.AgreeOn (buffer.resize length) 0 buffer.size := by
  intro i hi _
  have hwhole : buffer.bytes.take length = buffer.bytes := List.take_of_length_le hle
  have hlength : i < buffer.bytes.length := hi
  rw [bytes_resize, hwhole, List.getElem?_append_left hlength]

end Buffer

namespace Session

variable {session next : Session} {command : Command} {commands : List Command}

/-! ### Steps -/

/-- The ways in which a command changes a session. -/
inductive Changes (session : Session) : Command → Session → Prop where
  /-- The options become those given. -/
  | options (options : Options) : session.Changes (.setOptions options) { session with options }
  /-- The bytes from an offset on become those given. -/
  | patch {offset : Nat} {content buffer : Buffer}
      (hbytes : buffer.bytes = session.buffer.bytes.take offset ++
        (content.bytes ++ session.buffer.bytes.drop (offset + content.size))) :
      session.Changes (.patch offset content) { session with buffer }
  /-- The buffer gets the length given, and zeros where it had no bytes. -/
  | resize {length : Nat} {buffer : Buffer} (hsize : buffer.size = length)
      (hbytes : buffer.bytes = session.buffer.bytes.take length ++
        List.replicate (length - session.buffer.size) 0) :
      session.Changes (.resize length) { session with buffer }
  /-- The layout becomes that of the buffer. -/
  | reload {image : Image} (hload : Image.load session.buffer session.options = .ok image) :
      session.Changes .reload { session with layout := image.toLayout }

theorem after_reload_of_ok {image : Image}
    (hload : Image.load session.buffer session.options = .ok image) :
    session.after .reload = { session with layout := image.toLayout } := by
  rw [after, hload]

theorem after_reload_of_error {error : LoadError}
    (hload : Image.load session.buffer session.options = .error error) :
    session.after .reload = session := by
  rw [after, hload]

/-- A command changes a session in one of the ways listed, or not at all. -/
theorem after_eq_or_changes (session : Session) (command : Command) :
    session.after command = session ∨ session.Changes command (session.after command) := by
  cases command with
  | setOptions options => exact Or.inr (.options options)
  | patch offset content => exact Or.inr (.patch (Buffer.bytes_patch _ offset content))
  | resize length =>
      exact Or.inr (.resize (Buffer.size_resize _ length) (Buffer.bytes_resize _ length))
  | reload =>
      cases hload : Image.load session.buffer session.options with
      | error error => exact Or.inl (after_reload_of_error hload)
      | ok image =>
          rw [after_reload_of_ok hload]
          exact Or.inr (.reload hload)
  | _ => exact Or.inl rfl

/-- Only a reload changes the layout. -/
theorem Changes.layout (h : session.Changes command next) :
    next.layout = session.layout ∨ command = .reload ∧
      ∃ image, Image.load session.buffer session.options = .ok image ∧
        next.layout = image.toLayout := by
  cases h with
  | options options => exact Or.inl rfl
  | patch hbytes => exact Or.inl rfl
  | resize hsize hbytes => exact Or.inl rfl
  | reload hload => exact Or.inr ⟨rfl, _, hload, rfl⟩

/-- A reload is answered with the image that the buffer is found to be. -/
theorem outcome_step_reload (session : Session) :
    (session.step .reload).2.outcome =
      ((Image.load session.buffer session.options).mapError .load).map .image := by
  have hsame : (session.after .reload).buffer = session.buffer ∧
      (session.after .reload).options = session.options := by
    unfold after
    cases Image.load session.buffer session.options <;> exact ⟨rfl, rfl⟩
  unfold step answer
  rw [Narrated.outcome_bind, Narrated.outcome_mapError, outcome_narrateLoad, hsame.1, hsame.2]
  cases Image.load session.buffer session.options <;> rfl

/-- A command that is answered with an error has changed nothing. -/
theorem after_eq_of_error {error : Failure}
    (herror : (session.step command).2.outcome = .error error) :
    session.after command = session := by
  cases command with
  | setOptions | patch | resize => exact nomatch herror
  | reload =>
      rw [outcome_step_reload] at herror
      cases hload : Image.load session.buffer session.options with
      | error error => exact after_reload_of_error hload
      | ok image =>
          rw [hload] at herror
          exact nomatch herror
  | _ => rfl

/-- A reload that is accepted answers with the image that the session then
    holds. -/
theorem image_after_reload {image : Image}
    (hok : (session.step .reload).2.outcome = .ok (.image image)) :
    Image.load session.buffer session.options = .ok image ∧
      (session.after .reload).image = image := by
  rw [outcome_step_reload] at hok
  cases hload : Image.load session.buffer session.options with
  | error error =>
      rw [hload] at hok
      exact nomatch hok
  | ok loaded =>
      rw [hload] at hok
      rcases hok with ⟨⟩
      refine ⟨rfl, ?_⟩
      rw [after_reload_of_ok hload, Session.image, ← (Image.load_cases hload).1]

/-! ### Runs -/

theorem length_run (session : Session) (commands : List Command) :
    (session.run commands).length = commands.length := by
  induction commands generalizing session with
  | nil => rfl
  | cons command commands ih => rw [run, List.length_cons, ih, List.length_cons]

theorem run_append (session : Session) (front back : List Command) :
    session.run (front ++ back) = session.run front ++ (session.afterAll front).run back := by
  induction front generalizing session with
  | nil => rfl
  | cons command front ih =>
      rw [List.cons_append, run, run, ih, List.cons_append]
      rfl

/-- Each step of a run is taken from where the commands in front of it lead. -/
theorem getElem?_run (session : Session) (commands : List Command) (i : Nat) :
    (session.run commands)[i]? =
      commands[i]?.map fun command => (session.afterAll (commands.take i)).step command := by
  induction commands generalizing session i with
  | nil => rfl
  | cons command commands ih =>
      cases i with
      | zero => rfl
      | succ i =>
          rw [run, List.getElem?_cons_succ, ih, List.getElem?_cons_succ]
          rfl

end Session

/-- The command only asks. -/
def Command.IsQuery : Command → Prop
  | .setOptions _ | .patch _ _ | .resize _ | .reload => False
  | _ => True

namespace Session

variable {session : Session} {command : Command} {commands : List Command}

theorem after_query (h : command.IsQuery) : session.after command = session := by
  cases command with
  | setOptions | patch | resize | reload => exact h.elim
  | _ => rfl

/-- A run of queries stays where it is, so no answer depends on another. -/
theorem run_queries (h : ∀ command ∈ commands, command.IsQuery) :
    session.run commands = commands.map fun command => (session, session.answer command) := by
  induction commands with
  | nil => rfl
  | cons command commands ih =>
      rcases List.forall_mem_cons.mp h with ⟨hquery, hrest⟩
      rw [run, step, after_query hquery, ih hrest, List.map_cons]

/-- A run that is answered with nothing but errors comes back to where it
    began. -/
theorem afterAll_of_errors
    (h : ∀ taken ∈ session.run commands, ∃ error, taken.2.outcome = .error error) :
    session.afterAll commands = session := by
  induction commands with
  | nil => rfl
  | cons command commands ih =>
      rcases List.forall_mem_cons.mp h with ⟨⟨error, herror⟩, hrest⟩
      have hsame : session.after command = session := after_eq_of_error herror
      rw [hsame] at hrest
      rw [afterAll, List.foldl_cons, hsame]
      exact ih hrest

/-- The layout behind a run is the one it began with, or that of a reload that
    was accepted on the way. -/
theorem layout_afterAll (session : Session) (commands : List Command) :
    (session.afterAll commands).layout = session.layout ∨
      ∃ front back image, commands = front ++ .reload :: back ∧
        Image.load (session.afterAll front).buffer (session.afterAll front).options = .ok image ∧
        (session.afterAll commands).layout = image.toLayout := by
  induction commands generalizing session with
  | nil => exact Or.inl rfl
  | cons command commands ih =>
      rcases ih (session.after command) with hkept | ⟨front, back, image, rfl, hload, hlayout⟩
      · rw [afterAll, List.foldl_cons, ← afterAll, hkept]
        rcases after_eq_or_changes session command with hsame | hchanged
        · exact Or.inl (congrArg Session.layout hsame)
        · rcases hchanged.layout with hlayout | ⟨rfl, image, hload, hlayout⟩
          · exact Or.inl hlayout
          · exact Or.inr ⟨[], commands, image, rfl, hload, hlayout⟩
      · exact Or.inr ⟨command :: front, back, image, rfl, hload, hlayout⟩

/-! ### Current layouts -/

/-- The layout is what loading the buffer finds. -/
def Current (session : Session) : Prop :=
  ∃ options, Image.load session.buffer options = .ok session.image

/-- The command leaves the headers alone and takes nothing off the buffer. -/
def KeptBy (session : Session) : Command → Prop
  | .patch offset content =>
    session.layout.headersEnd ≤ offset ∧ offset + content.size ≤ session.buffer.size
  | .resize length => session.buffer.size ≤ length ∧ length < UInt32.size
  | _ => True

/-- So does each of many commands, when its turn comes. -/
def KeptByAll (session : Session) : List Command → Prop
  | [] => True
  | command :: commands => session.KeptBy command ∧ (session.after command).KeptByAll commands

theorem load_eq_image {buffer : Buffer} {options : Options} {image : Image}
    (hload : Image.load buffer options = .ok image) :
    Image.load buffer options = .ok { image.toLayout with buffer } := by
  rw [hload, ← (Image.load_cases hload).1]

/-- A session that was started from a buffer has the layout of that buffer. -/
theorem current_of_start {buffer : Buffer} {options : Options}
    (hstart : (start buffer options).outcome = .ok session) : session.Current := by
  unfold start at hstart
  rw [Narrated.outcome_bind, outcome_narrateLoad, bind_eq_ok_iff] at hstart
  rcases hstart with ⟨image, hload, ⟨⟩⟩
  exact ⟨options, load_eq_image hload⟩

/-- A reload that is accepted makes the layout good, whatever it was. -/
theorem current_after_reload {image : Image}
    (hload : Image.load session.buffer session.options = .ok image) :
    (session.after .reload).Current := by
  rw [after_reload_of_ok hload]
  exact ⟨session.options, load_eq_image hload⟩

namespace Current

theorem wellFormed (h : session.Current) : session.image.WellFormed := by
  rcases h with ⟨options, hload⟩
  exact Image.wellFormed_of_load hload

/-- A reload finds nothing new where the layout is good. -/
theorem after_reload (h : session.Current) : session.after .reload = session := by
  rcases h with ⟨options, hload⟩
  cases hreload : Image.load session.buffer session.options with
  | error error => exact after_reload_of_error hreload
  | ok image =>
      rw [after_reload_of_ok hreload, load_unique hreload hload]
      rfl

/-- The layout stays good when the headers are left alone. -/
theorem after (h : session.Current) (hkept : session.KeptBy command) :
    (session.after command).Current := by
  have hheaders : session.layout.headersEnd ≤ session.buffer.size := h.wellFormed.table
  rcases h with ⟨options, hload⟩
  cases command with
  | patch offset content =>
      rcases hkept with ⟨hbehind, hfit⟩
      have hsize := Buffer.size_patch hfit
      have hsmall := (Image.load_cases hload).2.1
      exact ⟨options, Image.load_of_agreeOn hload (Nat.le_of_eq hsize.symm) (hsize ▸ hsmall)
        (Buffer.agreeOn_patch hbehind (by omega) content)⟩
  | resize length =>
      rcases hkept with ⟨hlonger, hsmall⟩
      have hsize := Buffer.size_resize session.buffer length
      exact ⟨options, Image.load_of_agreeOn hload (hsize.symm ▸ hlonger) (hsize.symm ▸ hsmall)
        ((Buffer.agreeOn_resize hlonger).mono (Nat.le_refl _) hheaders)⟩
  | reload =>
      rw [after_reload ⟨options, hload⟩]
      exact ⟨options, hload⟩
  | _ => exact ⟨options, hload⟩

/-- It stays good all through a run. -/
theorem run (h : session.Current) (hkept : session.KeptByAll commands) :
    ∀ taken ∈ session.run commands, taken.1.Current := by
  induction commands generalizing session with
  | nil => exact List.forall_mem_nil _
  | cons command commands ih =>
      rcases hkept with ⟨hcommand, hrest⟩
      have hnext := h.after hcommand
      exact List.forall_mem_cons.mpr ⟨hnext, ih hnext hrest⟩

end Current

/-- Whatever was done in front of it, a reload that is accepted makes the layout
    good for the rest of a run. -/
theorem current_behind_reload {front back : List Command} {image : Image}
    (hload : Image.load (session.afterAll front).buffer (session.afterAll front).options =
      .ok image)
    (hkept : ((session.afterAll front).after .reload).KeptByAll back) :
    ∀ taken ∈ (session.run (front ++ .reload :: back)).drop front.length, taken.1.Current := by
  have hreloaded := current_after_reload hload
  rw [run_append, List.drop_left' (length_run session front)]
  exact List.forall_mem_cons.mpr ⟨hreloaded, hreloaded.run hkept⟩

/-! ### Lookups on the way -/

theorem outcome_reply {α : Type} (found : Narrated LookupError α) (name : α → Reply) :
    (reply found name).outcome = (found.outcome.mapError .lookup).map name := by
  unfold reply
  rw [Narrated.outcome_bind, Narrated.outcome_mapError]
  cases found.outcome <;> rfl

theorem events_reply {α : Type} (found : Narrated LookupError α) (name : α → Reply) :
    (reply found name).events = found.events := by
  unfold reply
  rw [Narrated.events_bind, Narrated.outcome_mapError]
  cases found.outcome <;> exact List.append_nil _

namespace Current

/-- A good layout gives the path that loading the buffer anew gives, if the
    options admit the image. -/
theorem locate_eq_symbolPath (h : session.Current)
    (hadmitted : session.image.AdmittedBy session.options) :
    (session.answer .locate).outcome = (session.answer .symbolPath).outcome := by
  rcases h with ⟨loading, hloading⟩
  have hload := load_of_admitted hloading hadmitted
  have hlocate : locate session.buffer session.options =
      (session.image.symbolPath session.options).mapError .lookup := by
    by_cases hsupport : session.options.debugSupport = true
    · exact locate_of_loaded hsupport hload
    · -- Without debug support both lookups stop at once.
      rw [Bool.not_eq_true] at hsupport
      rw [locate_of_switchedOff hsupport]
      unfold Image.symbolPath Image.debugDirectory
      rw [hsupport]
      rfl
  unfold answer
  rw [outcome_reply, Narrated.outcome_bind, outcome_narrateLocate, Image.outcome_narratePath,
    hlocate]
  cases session.image.symbolPath session.options <;> rfl

/-- A lookup with a good layout reports no error of the program. -/
theorem level_ne_error (h : session.Current)
    (hadmitted : session.image.AdmittedBy session.options) :
    ∀ event ∈ (session.answer .symbolPath).events, event.level ≠ .error := by
  unfold answer
  rw [events_reply]
  exact h.wellFormed.level_ne_error hadmitted

end Current

/-- No lookup in a run that leaves the headers alone reports an error of the
    program. -/
theorem level_ne_error_of_run (h : session.Current) (hkept : session.KeptByAll commands)
    {next : Session} {answer : Narrated Failure Reply} {i : Nat}
    (hcommand : commands[i]? = some .symbolPath)
    (htaken : (session.run commands)[i]? = some (next, answer))
    (hadmitted : next.image.AdmittedBy next.options) :
    ∀ event ∈ answer.events, event.level ≠ .error := by
  have hcurrent : next.Current := h.run hkept _ (List.mem_of_getElem? htaken)
  rw [getElem?_run, hcommand, Option.map_some, Option.some.injEq] at htaken
  rcases htaken with ⟨⟩
  exact hcurrent.level_ne_error hadmitted

end Session

end SymbolLocator
