import SealedCatalog.Bytes

/-!
Computations that look at files. An inquiry is a tree of questions, so that what it asks is a fact
about it and not about the files: `answer` runs it against a view of the files, and `places` are the
files that it then looked at. Main statements: both respect the composition of inquiries.
-/

namespace SealedCatalog

inductive FileFault where
  | notFound
  /-- A file stands where a directory is needed. -/
  | notDirectory
  | isDirectory
  /-- The path has a NUL character. -/
  | badPath
  | nameTooLong
  | notText
  | other (reason : String)
deriving DecidableEq, Inhabited, Repr

def FileFault.message : FileFault → String
  | notFound => "No such file or directory (os error 2)"
  | notDirectory => "Not a directory (os error 20)"
  | isDirectory => "Is a directory (os error 21)"
  | badPath => "file name contained an unexpected NUL byte"
  | nameTooLong => "File name too long (os error 36)"
  | notText => "stream did not contain valid UTF-8"
  | other reason => reason

structure FileView where
  content : String → Except FileFault Bytes
  present : String → Except FileFault Bool

inductive Inquiry (α : Type) where
  | done (value : α)
  | read (path : String) (next : Except FileFault Bytes → Inquiry α)
  | inspect (path : String) (next : Except FileFault Bool → Inquiry α)

namespace Inquiry

variable {α β : Type}

protected def bind (next : α → Inquiry β) : Inquiry α → Inquiry β
  | done value => next value
  | read path after => read path fun content => (after content).bind next
  | inspect path after => inspect path fun found => (after found).bind next

instance : Monad Inquiry where
  pure := done
  bind inquiry next := inquiry.bind next

def content (path : String) : Inquiry (Except FileFault Bytes) :=
  read path done

def text (path : String) : Inquiry (Except FileFault String) :=
  read path fun content => done do
    match (← content).toText? with
    | some found => return found
    | none => throw .notText

def present (path : String) : Inquiry (Except FileFault Bool) :=
  inspect path done

def answer (view : FileView) : Inquiry α → α
  | done value => value
  | read path next => (next (view.content path)).answer view
  | inspect path next => (next (view.present path)).answer view

/-- The paths that an inquiry looks at, in order. -/
def places (view : FileView) : Inquiry α → List String
  | done _ => []
  | read path next => path :: (next (view.content path)).places view
  | inspect path next => path :: (next (view.present path)).places view

@[simp] theorem answer_pure (view : FileView) (value : α) :
    (pure value : Inquiry α).answer view = value := rfl

@[simp] theorem places_pure (view : FileView) (value : α) :
    (pure value : Inquiry α).places view = [] := rfl

@[simp] theorem answer_bind (view : FileView) (inquiry : Inquiry α) (next : α → Inquiry β) :
    (inquiry >>= next).answer view = (next (inquiry.answer view)).answer view := by
  show (inquiry.bind next).answer view = _
  induction inquiry with
  | done value => rfl
  | read path after induction => exact induction _
  | inspect path after induction => exact induction _

@[simp] theorem places_bind (view : FileView) (inquiry : Inquiry α) (next : α → Inquiry β) :
    (inquiry >>= next).places view =
      inquiry.places view ++ (next (inquiry.answer view)).places view := by
  show (inquiry.bind next).places view = _
  induction inquiry with
  | done value => rfl
  | read path after induction => exact congrArg (path :: ·) (induction _)
  | inspect path after induction => exact congrArg (path :: ·) (induction _)

end Inquiry

end SealedCatalog
