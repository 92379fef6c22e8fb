/-! # The configuration template

A configuration file to start from: every setting with its default and a word on what it is for.
-/
namespace SafeAlter.CommandLine

def templateLines : List String :=
  ["# schema-guard configuration",
   "#",
   "# schema-guard reads the shared agent configuration file",
   "# (/opt/releem/releem.conf, or the path in RELEEM_CONFIG / --config).",
   "# Keys not listed here are ignored, so these settings can live alongside",
   "# the rest of the agent configuration.",
   "",
   "# Credentials used by mysqldump, xtrabackup and pt-online-schema-change.",
   "# Empty values fall back to the connection string (MYSQL_DSN / --dsn),",
   "# then to 127.0.0.1 and 3306.",
   "mysql_host = \"\"",
   "mysql_port = \"\"",
   "mysql_user = \"\"",
   "mysql_password = \"\"",
   "",
   "# Directory receiving dump files and xtrabackup target directories.",
   "# Created on demand when a backup is requested.",
   "backup_dir = \"/tmp/backups\"",
   "",
   "# External tools, as names on PATH or absolute paths",
   "ptosc_path = \"pt-online-schema-change\"",
   "mysqldump_path = \"mysqldump\"",
   "xtrabackup_path = \"xtrabackup\"",
   "",
   "# Extra free space required on top of the estimated backup size, in percent.",
   "# 0 means the default of 20.",
   "backup_space_buffer = 20"]

def template : String :=
  String.join (templateLines.map (· ++ "\n"))

end SafeAlter.CommandLine
