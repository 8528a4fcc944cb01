import SymbolLocator.Narration

/-!
# Sessions

Looking around in an image whose buffer changes.

A session holds a buffer, options and a layout. The layout was read from the
buffer at some time, or given by hand, and it stays as it is when the buffer
is edited: a command works on the current buffer as the layout describes it,
and what no longer holds shows as a failure. Only `reload` reads the layout
anew, and only if the buffer is accepted.

## Main definitions

* `Session`: A buffer, options and a layout.
* `Session.start`: The session of a buffer that is an image.
* `Command`, `Reply`: What can be asked, and what is answered.
* `Session.after`, `Session.answer`: What a command changes, and its answer.
* `Session.step`: Both together.
* `Session.afterAll`, `Session.run`: What many commands make of a session, and
  the steps they take.
-/

namespace SymbolLocator

/-- A buffer under inspection. -/
structure Session where
  buffer : Buffer
  options : Options
  layout : Layout

/-- What can be asked of a session. -/
inductive Command where
  /-- Replace the options. -/
  | setOptions (options : Options)
  /-- Write over the bytes at an offset. -/
  | patch (offset : Nat) (content : Buffer)
  /-- Cut or extend the buffer. -/
  | resize (length : Nat)
  /-- Read the layout of the buffer anew. -/
  | reload
  /-- Load the buffer and find its path, whatever the layout says. -/
  | locate
  /-- Give the image. -/
  | describe
  /-- Give the section table. -/
  | sections
  /-- Give one section. -/
  | sectionAt (index : Nat)
  /-- Give the first section that holds a range. -/
  | sectionOf (range : VirtualRange)
  /-- Give the range that the debug slot announces. -/
  | announcedRange
  /-- Give the file offset of a range. -/
  | place (range : VirtualRange)
  /-- Give the debug directory. -/
  | directory
  /-- Give one entry of the debug directory. -/
  | entryAt (index : Nat)
  /-- Give the path in the record that an entry describes. -/
  | recordPath (entry : DebugEntry)
  /-- Give the path that the image names. -/
  | symbolPath

/-- What a session answers. -/
inductive Reply where
  | options (options : Options)
  | fileSize (size : Nat)
  | image (image : Image)
  | sections (table : SectionTable)
  | sectionAt (header : Option Section)
  | sectionOf (hit : Option (Nat × Section))
  | range (range : VirtualRange)
  | fileOffset (offset : UInt32)
  | directory (directory : DebugDirectory)
  | entryAt (entry : Option DebugEntry)
  | path (path : SymbolPath)

namespace Session

/-- The session of a buffer that is accepted as an image. -/
def start (buffer : Buffer) (options : Options) : Narrated LoadError Session := do
  let image ← narrateLoad buffer options
  return { buffer, options, layout := image.toLayout }

/-- The current buffer as the layout describes it. -/
def image (session : Session) : Image := { session.layout with buffer := session.buffer }

/-- The session behind a command. Only four commands change it, and `reload`
    only if the buffer is accepted. -/
def after (session : Session) : Command → Session
  | .setOptions options => { session with options }
  | .patch offset content => { session with buffer := session.buffer.patch offset content }
  | .resize length => { session with buffer := session.buffer.resize length }
  | .reload =>
    match Image.load session.buffer session.options with
    | .ok image => { session with layout := image.toLayout }
    | .error _ => session
  | _ => session

/-- Name the answer of a lookup in the image of a session. -/
def reply {α : Type} (found : Narrated LookupError α) (name : α → Reply) :
    Narrated Failure Reply := do
  let value ← found.mapError .lookup
  return name value

/-- What a session answers to a command that it has already carried out. -/
def answer (session : Session) : Command → Narrated Failure Reply
  | .setOptions _ => .silent (.ok (.options session.options))
  | .patch _ _ => .silent (.ok (.fileSize session.buffer.size))
  | .resize _ => .silent (.ok (.fileSize session.buffer.size))
  | .reload => do
    let image ← (narrateLoad session.buffer session.options).mapError .load
    return .image image
  | .locate => do
    let path ← narrateLocate session.buffer session.options
    return .path path
  | .describe => .silent (.ok (.image session.image))
  | .sections => reply session.image.narrateSectionTable .sections
  | .sectionAt index =>
    reply session.image.narrateSectionTable fun table => .sectionAt (table.get? index)
  | .sectionOf range =>
    reply session.image.narrateSectionTable fun table => .sectionOf (table.containing? range)
  | .announcedRange => reply (session.image.narrateAnnouncedRange session.options) .range
  | .place range =>
    reply (session.image.narratePlace range session.options) fun placement =>
      .fileOffset placement.fileOffset
  | .directory => reply (session.image.narrateDirectory session.options) .directory
  | .entryAt index =>
    reply (session.image.narrateDirectory session.options) fun directory =>
      .entryAt (directory.get? index)
  | .recordPath entry => reply (session.image.narrateRecordPath entry session.options) .path
  | .symbolPath => reply (session.image.narratePath session.options) .path

/-- Carry out a command, and answer it from what the session has become. -/
def step (session : Session) (command : Command) : Session × Narrated Failure Reply :=
  let next := session.after command
  (next, next.answer command)

/-- The session behind many commands. -/
def afterAll (session : Session) (commands : List Command) : Session :=
  commands.foldl after session

/-- Carry out commands one after the other, and collect the steps. -/
def run (session : Session) : List Command → List (Session × Narrated Failure Reply)
  | [] => []
  | command :: commands => session.step command :: (session.after command).run commands

end Session

end SymbolLocator
