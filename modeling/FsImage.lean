import FsImage.Python.Text
import FsImage.Python.Dict
import FsImage.Python.PosixPath
import FsImage.Python.Utf8
import FsImage.NspawnInSubvol.Args
import FsImage.NspawnInSubvol.Cmd
import FsImage.NspawnInSubvol.BindMounts
import FsImage.NspawnInSubvol.Environment
import FsImage.NspawnInSubvol.LaunchRepoServers
import FsImage.Compiler.Items.MakeDirs
import FsImage.Find.Fnmatch
import FsImage.Find.Traversal
import FsImage.Compiler.Items.PhasesProvide
import FsImage.Compiler.Items.ProvidesAtRoot
import FsImage.Compiler.Items.ProvidesInSubtree
import FsImage.Python.FileTree
import FsImage.Rpm.TempRepos
import FsImage.Rpm.Modes
import FsImage.Rpm.Locations
import FsImage.NspawnInSubvol.CliArgs
import FsImage.NspawnInSubvol.Invocation
import FsImage.NspawnInSubvol.Snapshot
