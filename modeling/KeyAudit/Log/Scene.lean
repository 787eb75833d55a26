import KeyAudit.Log.Logged

/-!
# Scenes

An audit reads files and leaves log records, and the log may be kept in one of the
files that it reads. A scene is where that happens: it has a file system as it is
at the moment, and goes on when records are logged.

A file system is a scene by itself, in which the records are kept elsewhere: it does
not change.
-/

namespace KeyAudit

/-- Where an audit takes place. -/
class Scene (σ : Type) where
  /-- The file system as it is. -/
  files : σ → FileSystem
  /-- The scene after records have been logged. -/
  record : σ → List Record → σ

instance : Scene FileSystem where
  files fs := fs
  record fs _ := fs

@[simp] theorem Scene.files_fileSystem (fs : FileSystem) : Scene.files fs = fs := rfl

@[simp] theorem Scene.record_fileSystem (fs : FileSystem) (records : List Record) :
    Scene.record fs records = fs := rfl

/-- Work followed by more work, unless it fails, in the scene after its records have
    been logged. -/
def Logged.andThen {σ ε α β : Type} [Scene σ] (s : σ) (w : Logged ε α)
    (f : σ → α → Logged ε β) : Logged ε β :=
  w.bind (f (Scene.record s w.records))

@[simp] theorem Logged.outcome_andThen {σ ε α β : Type} [Scene σ] (s : σ) (w : Logged ε α)
    (f : σ → α → Logged ε β) :
    (w.andThen s f).outcome =
      w.outcome >>= fun a => (f (Scene.record s w.records) a).outcome :=
  outcome_bind w _

end KeyAudit
