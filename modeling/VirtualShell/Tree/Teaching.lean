import VirtualShell.Tree.Node

/-!
# The teaching tree

The tree that a shell starts from when it is given no other: a home directory with something to
read, and the directories that a newcomer expects at the root.
-/

namespace VirtualShell.Node

/-- The home directory of the user. -/
def teachingHome : Node :=
  ofEntries [
    ("documents", ofEntries [
      ("readme.txt", file ("Welcome to the Linux Mastery Game!\n" ++
        "Learn Linux commands by completing challenges.") none),
      ("notes.txt", file ("Remember:\n- pwd shows current directory\n- ls lists files\n" ++
        "- cd changes directory") none)]),
    ("projects", ofEntries [
      ("game", ofEntries [
        ("main.py", file "#!/usr/bin/env python3\nprint(\"Hello, Linux!\")" none)])]),
    (".bashrc", file "# Bash configuration file\nexport PATH=$PATH:/usr/local/bin" none)]

/-- The whole tree. -/
def teachingTree : Node :=
  ofEntries [
    ("home", ofEntries [("user", teachingHome)]),
    ("etc", ofEntries [
      ("passwd", file ("root:x:0:0:root:/root:/bin/bash\n" ++
        "user:x:1000:1000:user:/home/user:/bin/bash") none)]),
    ("var", ofEntries [
      ("log", ofEntries [
        ("system.log", file ("[INFO] System started successfully\n" ++
          "[INFO] All services running") none)])]),
    ("usr", ofEntries [
      ("bin", emptyDirectory),
      ("local", ofEntries [("bin", emptyDirectory)])])]

end VirtualShell.Node
