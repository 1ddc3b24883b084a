import SourceFlags.SExpr.Token

namespace SourceFlags

open Text

inductive Errno
  | noEntry
  | notDirectory
  | isDirectory
  | tooManyLinks
  | nameTooLong
  | noAccess
  deriving DecidableEq, Repr

namespace Errno

def text : Errno → String
  | .noEntry => "[Errno 2] No such file or directory"
  | .notDirectory => "[Errno 20] Not a directory"
  | .isDirectory => "[Errno 21] Is a directory"
  | .tooManyLinks => "[Errno 40] Too many levels of symbolic links"
  | .nameTooLong => "[Errno 36] File name too long"
  | .noAccess => "[Errno 13] Permission denied"

-- Whether it says that nothing is there, as against a way that is refused.
def isAbsence : Errno → Bool
  | .noEntry => true
  | .notDirectory => true
  | .tooManyLinks => true
  | _ => false

end Errno

inductive Error
  -- Declarations of project types and matchers.
  | markerMissing (type : String)
  | markerUnsupported (type kind : String)
  | loaderMissing (type : String)
  | sourceUnknown (kind shown : String)
  | notSeeded (type : String)
  | unknownPriority (name : String)
  -- Loading.
  | untrusted (type directory : String)
  | nothingLoaded (type directory : String)
  | unexpectedArgument (name : String)
  | wrongKind
  | noMember
  -- Project files.
  | unreadable (path reason : String)
  | noProjectForm (path : String)
  | form (e : SExpr.ReadError)
  | notIterable
  -- Locations.
  | noSuchGroup (group : Int)
  | absentGroup (group : Int)
  | unknownUser (name : String)
  | cwdGone
  | refused (e : Errno)
  | linkLoop
  | tooDeep
  -- Settings.
  | badNumber (text : String)
  | unknownLogLevel (name : String)
  deriving DecidableEq, Repr

namespace Error

def message : Error → String
  | .markerMissing type => "Project type '" ++ type ++ "' needs a marker file or a root dir matcher"
  | .markerUnsupported type kind =>
    "Project type '" ++ type ++ "' has an unsupported marker file " ++ kind
  | .loaderMissing type => "Project type '" ++ type ++ "' has no callable loader"
  | .sourceUnknown kind shown => "Unknown dirmatch config source " ++ kind ++ ": " ++ shown
  | .notSeeded type =>
    "Cannot register project type '" ++ type ++
      "': the project type registry has not been seeded yet."
  | .unknownPriority name => quoted name ++ " is not a valid Priority"
  | .untrusted type directory =>
    "Refuse to auto-load unsafe project type '" ++ type ++ "' from untrusted directory " ++
      directory ++ ". Add it to ZFLAGS_TRUSTED_DIRS to allow loading."
  | .nothingLoaded type directory =>
    "Project type '" ++ type ++ "' loader failed to create a project for " ++ directory
  | .unexpectedArgument name => "Unexpected argument " ++ quoted name
  | .wrongKind => "Value of a wrong kind"
  | .noMember => "Value without the member that is asked for"
  | .unreadable path reason => "Cannot read " ++ path ++ ": " ++ reason
  | .noProjectForm path => "No ede-proj-project form in " ++ path
  | .form e => e.message
  | .notIterable => "Form that holds no others"
  | .noSuchGroup group => "No such group: " ++ toString group
  | .absentGroup group => "Group took no part in the match: " ++ toString group
  | .unknownUser name => "Home directory of " ++ quoted name ++ " is not known"
  | .cwdGone => "The current directory is gone"
  | .refused e => e.text
  | .linkLoop => "Links that lead back to themselves"
  | .tooDeep => "Too many directories within each other"
  | .badNumber text => "Not a number: " ++ quoted text
  | .unknownLogLevel name => "Unknown level: " ++ quoted name

def isProjectFile : Error → Bool
  | .unreadable .. => true
  | .noProjectForm _ => true
  | .form e => e != .integerTooLong
  | _ => false

end Error
end SourceFlags
